import SpdxHeaders.Proofs.FileTree.Names

/-!
# What a tree lists

A tree that lists every entry once can list them in any order: what is where (`get?_of_perm`), and
so what is read, does not depend on it. If entries lie in directories, as they do in a file system,
contents are found at files and directories only (`Grounded.exists_of_locate`).
-/

namespace SpdxHeaders.FileTree

/-- Entries lie in directories, and the current directory is one. -/
structure Grounded (t : FileTree) : Prop where
  parent : ∀ l n, (t.get? (l ++ [n])).isSome → t.get? l = some .directory
  here : t.get? t.here = some .directory

variable {t t' : FileTree} {ns ms : List (Location × Node)} {l l' : Location}

/-- A directory lies in a directory. -/
lemma Grounded.dropLast (ht : t.Grounded) (h : t.get? l = some .directory) :
    t.get? l.dropLast = some .directory := by
  rcases List.eq_nil_or_concat' l with rfl | ⟨k, n, rfl⟩
  · exact h
  · rw [List.dropLast_concat]
    exact ht.parent k n (by rw [h]; rfl)

/-- Content is not found at a link, nor where nothing is. -/
lemma Grounded.exists_of_follow (ht : t.Grounded) {links : Nat} {parts : List Text}
    (hl : ∃ n, t.get? l = some n ∧ ∀ target, n ≠ .link target)
    (h : t.follow .content links l parts = .ok l') :
    ∃ n, t.get? l' = some n ∧ ∀ target, n ≠ .link target := by
  induction links, l, parts using followInduction t .content with
  | nil links l =>
    rw [follow_nil] at h
    cases h
    exact hl
  | cons links l part parts ih =>
    rw [follow_cons, bind_eq_ok_iff] at h
    obtain ⟨s, hs, h⟩ := h
    obtain ⟨hdir, hstep⟩ := stepped_of_stepInto hs
    refine ih s hs ?_ h
    cases hstep with
    | stay => exact hl
    | up => exact ⟨_, ht.dropLast hdir, nofun⟩
    | last hpurpose => exact absurd rfl hpurpose
    | through k hk target =>
      dsimp only
      split
      · exact ⟨_, rfl, nofun⟩
      · exact hl
    | into n hn hlink => exact ⟨n, hn, hlink⟩

/-- A path that leads somewhere leads to a node, and not to a link. -/
lemma Grounded.exists_of_locate (ht : t.Grounded) {p : Path} (h : t.locate .content p = .ok l) :
    ∃ n, t.get? l = some n ∧ ∀ target, n ≠ .link target := by
  refine ht.exists_of_follow ?_ (follow_of_locate h).2
  split
  · exact ⟨_, rfl, nofun⟩
  · exact ⟨_, ht.here, nofun⟩

/-- In a list with one entry for each location, an entry is found wherever it stands. -/
lemma lookup_eq_of_perm (h : ns.Perm ms) (hns : (ns.map Prod.fst).Nodup) (l : Location) :
    ns.lookup l = ms.lookup l := by
  induction h with
  | nil => rfl
  | cons n _ ih =>
    rw [List.lookup_cons, List.lookup_cons, ih (List.nodup_cons.1 hns).2]
  | swap n m ns =>
    obtain ⟨k, n⟩ := n
    obtain ⟨k', m⟩ := m
    have hne : k' ≠ k := fun h => (List.nodup_cons.1 hns).1 (h ▸ List.mem_cons_self)
    simp only [List.lookup_cons]
    by_cases hk : l = k
    · rw [beq_iff_eq.2 hk, beq_eq_false_iff_ne.2 (hk ▸ hne.symm)]
    · rw [beq_eq_false_iff_ne.2 hk]
  | trans h _ ih ih' =>
    exact (ih hns).trans (ih' ((h.map Prod.fst).nodup_iff.1 hns))

/-- In which order the nodes are listed does not matter. -/
lemma get?_of_perm (h : ns.Perm t.nodes) (hns : (t.nodes.map Prod.fst).Nodup) (l : Location) :
    ({ t with nodes := ns } : FileTree).get? l = t.get? l := by
  cases l with
  | nil => rfl
  | cons a l => exact lookup_eq_of_perm h ((h.map Prod.fst).nodup_iff.2 hns) (a :: l)

/-- Trees that list the same entries are alike. -/
lemma Alike.of_perm (h : ns.Perm t.nodes) (hns : (t.nodes.map Prod.fst).Nodup) :
    t.Alike { t with nodes := ns } :=
  ⟨rfl, rfl, rfl, fun _ => (h.map Prod.fst).mem_iff, fun l => get?_of_perm h hns l ▸ .refl _⟩

/-- The same bytes are read where the same is found. -/
lemma Alike.read (h : t.Alike t') (hget : ∀ l, t'.get? l = t.get? l) (p : Path) :
    t'.read p = t.read p := by
  unfold FileTree.read bytesAt
  simp only [h.locate, hget]

end SpdxHeaders.FileTree
