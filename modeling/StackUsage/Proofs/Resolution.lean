import StackUsage.Proofs.Path.Normal
import StackUsage.Proofs.Walk
import StackUsage.Resolution

/-! What the resolved path of a link denotes. A step up is folded against the name before it, and
the system takes it from where that name leads. The two agree when the step up leads back to the
directory in which the name was taken, as it does if no name on the way is a link. Then the resolved
path denotes the file that the link denotes. A link to a directory elsewhere, followed by a step up,
makes them differ. -/

namespace StackUsage

open StackUsage.Tree (Leads)

/-! ### Steps up that lead back -/

/-- Whether every step up that is folded against a name leads back to the directory in which the
name was taken: from the directory at `loc`, with the directories of the names taken so far, the
last one first. -/
def returns (t : Tree) : List Location → Location → List Component → Bool
  | _, _, [] => true
  | _, _, .root :: rest => returns t [] [] rest
  | taken, loc, .here :: rest => returns t taken loc rest
  | [], loc, .up :: rest => returns t [] loc.dropLast rest
  | back :: taken, loc, .up :: rest => loc.dropLast = back && returns t taken back rest
  | taken, loc, .name text :: rest =>
    match t.walk .target Tree.maxLinks loc [.name text] with
    | .ok (.entry next .directory) => returns t (loc :: taken) next rest
    | _ => true

/-- The last name was taken just above the location, the one before it just above that, and so
on. -/
def Stacked : List Location → Location → Prop
  | [], _ => True
  | back :: taken, loc => loc.dropLast = back ∧ Stacked taken back

/-- Where no name on the way is a link, every step up leads back. -/
theorem returns_of_linkless {t : Tree} {cs : List Component} {taken : List Location}
    {loc : Location} (linkless : ∀ text, .name text ∈ cs →
      ∀ above target, t.node? (above ++ [text]) ≠ some (.link target))
    (h : Stacked taken loc) : returns t taken loc cs = true := by
  induction cs generalizing taken loc with
  | nil => simp only [returns]
  | cons c rest ih =>
    have go : ∀ {taken loc}, Stacked taken loc → returns t taken loc rest = true :=
      ih fun text ht => linkless text (List.mem_cons_of_mem _ ht)
    cases c with
    | root =>
      simp only [returns]
      exact go trivial
    | here =>
      simp only [returns]
      exact go h
    | up =>
      cases taken with
      | nil =>
        simp only [returns]
        exact go trivial
      | cons back taken =>
        simp only [returns, Bool.and_eq_true, decide_eq_true_eq]
        exact ⟨h.1, go h.2⟩
    | name text =>
      rw [returns]
      split
      · next next hw =>
        obtain ⟨n, -, hl⟩ := Tree.leads_of_walk hw
        cases hl with
        | directory _ _ hl =>
          cases hl
          exact go ⟨List.dropLast_concat, h⟩
        | link _ hn => exact absurd hn (linkless text List.mem_cons_self loc _)
      · rfl

/-- Steps that were taken, the last one first, with the location that they lead to, the links on the
way, and the directories in which their names were taken. -/
inductive Trail (t : Tree) (start : Location) :
    List Component → Location → Nat → List Location → Prop
  | start : Trail t start [] start 0 []
  | root : Trail t start [.root] [] 0 []
  | up {steps loc m} : Trail t start steps loc m [] → steps ≠ [.root] →
    Trail t start (.up :: steps) loc.dropLast m []
  | name {steps loc m taken next k text} : Trail t start steps loc m taken →
    Leads t loc [.name text] k next .directory →
    Trail t start (.name text :: steps) next (m + k) (loc :: taken)

namespace Trail

variable {t : Tree} {start loc : Location} {steps : List Component} {m : Nat}
  {taken : List Location}

theorem leads (h : Trail t start steps loc m taken) :
    Leads t start steps.reverse m loc .directory := by
  induction h with
  | start => exact .done start
  | root => exact .root (.done [])
  | up _ _ ih =>
    rw [List.reverse_cons]
    exact ih.append (.up (.done _))
  | name _ hn ih =>
    rw [List.reverse_cons]
    exact ih.append hn

end Trail

/-- Along steps up that lead back, the steps that are left lead to the same file, over no more
links. -/
theorem leads_foldl {t : Tree} {start loc l : Location} {steps cs : List Component} {m n : Nat}
    {taken : List Location} {content : Option String} (h : Trail t start steps loc m taken)
    (hr : returns t taken loc cs = true) (hl : Leads t loc cs n l (.file content))
    (hn : m + n ≤ Tree.maxLinks) :
    ∃ k ≤ m + n, Leads t start (cs.foldl Path.follow steps).reverse k l (.file content) := by
  induction cs generalizing steps loc m n taken with
  | nil => cases hl
  | cons c rest ih =>
    cases c with
    | here =>
      cases hl with
      | here hl =>
        have hr : returns t taken loc rest = true := by simpa only [returns] using hr
        exact ih h hr hl hn
    | root =>
      cases hl with
      | root hl =>
        have hr : returns t [] [] rest = true := by simpa only [returns] using hr
        obtain ⟨k, hk, hl⟩ := ih .root hr hl (by omega)
        exact ⟨k, by omega, hl⟩
    | up =>
      cases hl with
      | up hl =>
        cases h with
        | start => exact ih (.up .start (by simp)) hr hl hn
        | root => exact ih .root hr hl hn
        | up h ne => exact ih (.up (.up h ne) (by simp)) hr hl hn
        | name h _ =>
          simp only [returns, Bool.and_eq_true, decide_eq_true_eq] at hr
          obtain ⟨rfl, hr⟩ := hr
          obtain ⟨k, hk, hl⟩ := ih h hr hl (by omega)
          exact ⟨k, by omega, hl⟩
    | name text =>
      by_cases last : rest = []
      · subst last
        refine ⟨m + n, Nat.le_refl _, ?_⟩
        rw [List.foldl_cons, List.foldl_nil, Path.follow, List.reverse_cons]
        exact h.leads.append hl
      · obtain ⟨d, i, k, rfl, first, second⟩ := hl.split (a := [.name text]) last
        have hr : returns t (loc :: taken) d rest = true := by
          rw [returns, Tree.walk_of_leads first (by omega)] at hr
          exact hr
        obtain ⟨j, hj, hl⟩ := ih (.name h first) hr second (by omega)
        exact ⟨j, by omega, hl⟩

/-! ### Links -/

namespace Resolution

/-- Behind a link, the moves of the directory of the link and of its target lead on. -/
theorem leads_join {t : Tree} {p target : Path} {l : Location} {m n : Nat}
    {content : Option String} (link : t.NamesLink t.workdir p.steps m target)
    (hl : Leads t t.workdir p.steps n l (.file content)) :
    ∃ q, p.parent = some q ∧
      ∃ k < n, Leads t t.workdir (q.join target).components k l (.file content) := by
  obtain ⟨init, text, d, k, hs, before, hn, behind⟩ := link.follow hl
  have moves : p.moves = init.filter (· ≠ .here) ++ [.name text] := by
    rw [← p.filter_steps, hs]
    simp
  obtain ⟨q, hp⟩ := Path.exists_parent moves
  refine ⟨q, hp, ?_⟩
  have joined : Leads t t.workdir (q.join target).moves (m + k) l (.file content) ∨
      Leads t t.workdir (q.join target).moves k l (.file content) := by
    have behind := behind.filter_here
    rw [target.filter_steps] at behind
    rw [Path.moves_join, Path.moves_parent hp moves]
    split
    · next absolute =>
      -- The target starts at the root, wherever the link is.
      refine .inr ?_
      rw [Path.moves_eq, absolute] at behind ⊢
      cases behind with
      | root behind => exact .root behind
    · exact .inl (before.filter_here.append behind)
  have dotted : ∀ {k}, Leads t t.workdir (q.join target).moves k l (.file content) →
      Leads t t.workdir (q.join target).components k l (.file content) := by
    intro k h
    rcases (q.join target).components_eq_moves with he | he
    · rw [he]
      exact h
    · rw [he]
      exact .here h
  rcases joined with h | h
  · exact ⟨m + k, by omega, dotted h⟩
  · exact ⟨k, by omega, dotted h⟩

theorem resolve_real {t : Tree} {p q : Path} (h : resolve t p = .ok (.real q)) :
    ∃ target, t.readLink p = .ok target ∧ q = linkTarget p target := by
  unfold resolve at h
  split at h
  · next target hl =>
    cases h
    exact ⟨target, hl, rfl⟩
  all_goals cases h

/-- A fault is passed on, unless it means that nothing is there or that it is no link. -/
theorem resolve_of_fault {t : Tree} {p : Path} {fault : Tree.Fault}
    (h : t.readLink p = .error fault) (found : fault ≠ .notFound) (link : fault ≠ .notLink)
    (nul : fault ≠ .nulInName) : resolve t p = .error (.access fault) := by
  unfold resolve
  split <;> simp_all

/-- The walk along the resolved path ends at the file that the link denotes. -/
theorem leads_resolved {t : Tree} {p target : Path} {l : Location} {content : Option String}
    (read : t.readLink p = .ok target)
    (back : returns t [] t.workdir ((p.parent.getD ⟨""⟩).join target).components = true)
    (opened : t.find p = .ok (l, .file content)) :
    (linkTarget p target).chars ≠ [] ∧
      ∃ n ≤ Tree.maxLinks, Leads t t.workdir (linkTarget p target).steps n l (.file content) := by
  obtain ⟨m, -, link⟩ := Tree.readLink_ok read
  obtain ⟨-, -, -, n, hn, hl⟩ := Tree.find_iff.1 opened
  obtain ⟨directory, hp, k, hk, joined⟩ := leads_join link hl
  rw [hp, Option.getD_some] at back
  obtain ⟨i, hi, walked⟩ := leads_foldl .start back joined (by omega)
  -- What is left ends with a name, so its spelling is walked just so.
  obtain ⟨taken, last, he⟩ := walked.last_name
  have plain := Path.plain_foldl (directory.join target)
  rw [he] at walked plain
  have steps : (linkTarget p target).steps = taken ++ [.name last] := by
    rw [linkTarget, hp, Option.getD_some, Path.normalize, he]
    exact Path.steps_ofComponents plain
  refine ⟨fun empty => ?_, i, by omega, steps ▸ walked⟩
  have dot : (linkTarget p target).steps = [.here] := by
    simp [Path.steps, Path.pieces, Path.isAbsolute, empty, Path.stepOfPiece]
  have ends := congrArg List.getLast? (steps.symm.trans dot)
  simp at ends

/-- A resolved path that the system takes denotes the file that the link denotes. -/
theorem reads_resolved {t : Tree} {p target : Path} {l : Location} {content : Option String}
    (read : t.readLink p = .ok target)
    (back : returns t [] t.workdir ((p.parent.getD ⟨""⟩).join target).components = true)
    (opened : t.find p = .ok (l, .file content)) (nul : '\x00' ∉ (linkTarget p target).chars)
    (bytes : (linkTarget p target).spelling.utf8ByteSize < Tree.maxPathBytes) :
    t.find (linkTarget p target) = .ok (l, .file content) ∧
      t.readText (linkTarget p target) = t.readText p := by
  obtain ⟨ne, leads⟩ := leads_resolved read back opened
  have same : t.find (linkTarget p target) = .ok (l, .file content) :=
    Tree.find_iff.2 ⟨nul, ne, bytes, leads⟩
  exact ⟨same, by rw [Tree.readText, Tree.readText, same, opened]⟩

/-- So it does if no name on the way is the name of a link. -/
theorem reads_of_linkless {t : Tree} {p q : Path} {l : Location} {content : Option String}
    (resolved : resolve t p = .ok (.real q))
    (linkless : ∀ target, t.readLink p = .ok target →
      ∀ text, .name text ∈ ((p.parent.getD ⟨""⟩).join target).components →
        ∀ above other, t.node? (above ++ [text]) ≠ some (.link other))
    (opened : t.find p = .ok (l, .file content)) (nul : '\x00' ∉ q.chars)
    (bytes : q.spelling.utf8ByteSize < Tree.maxPathBytes) :
    t.find q = .ok (l, .file content) ∧ t.readText q = t.readText p := by
  obtain ⟨target, read, rfl⟩ := resolve_real resolved
  exact reads_resolved read (returns_of_linkless (linkless target read) trivial) opened nul bytes

/-- The resolved path of a link denotes the file that the link denotes, if every step up in it
that is folded against a name leads back to the directory in which the name was taken. The only
other thing that can happen is that the system does not take the resolved path at all, because it
has a zero byte or too many bytes; no other file is opened. -/
theorem resolved_denotes {t : Tree} {p q : Path} {l : Location} {content : Option String}
    (resolved : resolve t p = .ok (.real q))
    (back : ∀ target, t.readLink p = .ok target →
      returns t [] t.workdir ((p.parent.getD ⟨""⟩).join target).components = true)
    (opened : t.find p = .ok (l, .file content)) :
    t.find q = .ok (l, .file content) ∧ t.readText q = t.readText p ∨
      ('\x00' ∈ q.chars ∨ Tree.maxPathBytes ≤ q.spelling.utf8ByteSize) ∧
        ∃ fault, t.find q = .error fault := by
  obtain ⟨target, read, rfl⟩ := resolve_real resolved
  by_cases taken : '\x00' ∉ (linkTarget p target).chars ∧
      (linkTarget p target).spelling.utf8ByteSize < Tree.maxPathBytes
  · exact .inl (reads_resolved read (back target read) opened taken.1 taken.2)
  · refine .inr ⟨(not_and_or.1 taken).imp not_not.1 Nat.not_lt.1, ?_⟩
    cases hf : t.find (linkTarget p target) with
    | error fault => exact ⟨fault, rfl⟩
    | ok found =>
      obtain ⟨nul, -, bytes, -⟩ := Tree.find_iff.1 hf
      exact absurd ⟨nul, bytes⟩ taken

/-- A directory with a manifest, and a link to it that goes there, back and there again. -/
def detour : Tree :=
  ⟨[], [(["b".toList], .directory), (["b".toList, "m".toList], .file (some "[]")),
    (["m".toList], .link ⟨"b/../b/m"⟩)]⟩

theorem resolved_denotes_detour :
    resolve detour ⟨"/m"⟩ = .ok (.real ⟨"/b/m"⟩) ∧
      detour.readText ⟨"/b/m"⟩ = detour.readText ⟨"/m"⟩ := by
  have resolved : resolve detour ⟨"/m"⟩ = .ok (.real ⟨"/b/m"⟩) := by decide +kernel
  have opened : detour.find ⟨"/m"⟩ = .ok (["b".toList, "m".toList], .file (some "[]")) := by
    decide +kernel
  have back : ∀ target, detour.readLink ⟨"/m"⟩ = .ok target →
      returns detour [] detour.workdir (((⟨"/m"⟩ : Path).parent.getD ⟨""⟩).join target).components =
        true := by
    intro target read
    have link : detour.readLink ⟨"/m"⟩ = .ok ⟨"b/../b/m"⟩ := by decide +kernel
    cases read.symm.trans link
    decide +kernel
  refine ⟨resolved, ?_⟩
  obtain ⟨-, same⟩ | ⟨untaken, -⟩ := resolved_denotes resolved back opened
  · exact same
  · exact absurd untaken (by decide +kernel)

/-- A directory that is a link to one elsewhere, and a link that goes there and a step up. -/
def shortcut : Tree :=
  ⟨[], [(["o".toList], .directory), (["o".toList, "d".toList], .directory),
    (["o".toList, "m".toList], .file (some "[]")), (["d".toList], .link ⟨"o/d"⟩),
    (["l".toList], .link ⟨"d/../m"⟩), (["m".toList], .file none)]⟩

/-- The step up is folded against the link to the directory, so another file is meant. -/
theorem shortcut_misleads :
    resolve shortcut ⟨"/l"⟩ = .ok (.real ⟨"/m"⟩) ∧
      shortcut.find ⟨"/l"⟩ = .ok (["o".toList, "m".toList], .file (some "[]")) ∧
      shortcut.find ⟨"/m"⟩ = .ok (["m".toList], .file none) := by
  decide +kernel

end Resolution

end StackUsage
