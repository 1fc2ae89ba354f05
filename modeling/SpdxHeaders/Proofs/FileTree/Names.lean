import SpdxHeaders.Proofs.FileTree.Alike
import SpdxHeaders.Proofs.Text.Pieces

/-!
# Names and the paths they make

In a file tree every entry has a name that can stand in a path. A path that goes on with the names
of entries leads to where these names lead (`locate_join`), unless it is too long to lead anywhere.
-/

namespace SpdxHeaders

/-- A name that an entry of a directory can have. -/
structure IsName (n : Text) : Prop where
  ne_nil : n ≠ []
  ne_current : n ≠ ['.']
  ne_parent : n ≠ ['.', '.']
  slash : '/' ∉ n

instance (n : Text) : Decidable (IsName n) :=
  decidable_of_iff (n ≠ [] ∧ n ≠ ['.'] ∧ n ≠ ['.', '.'] ∧ '/' ∉ n)
    ⟨fun ⟨h₁, h₂, h₃, h₄⟩ => ⟨h₁, h₂, h₃, h₄⟩, fun ⟨h₁, h₂, h₃, h₄⟩ => ⟨h₁, h₂, h₃, h₄⟩⟩

/-- Names are the parts of the path they make. -/
lemma pieces_ofNames {names : List Text} (hne : names ≠ []) (h : ∀ n ∈ names, IsName n) :
    Text.pieces '/' (Path.ofNames names) = names := by
  induction names with
  | nil => exact absurd rfl hne
  | cons n names ih =>
    have hslash := (h n List.mem_cons_self).slash
    cases names with
    | nil => simpa [Path.ofNames, Text.join, List.intercalate] using Text.pieces_of_notMem hslash
    | cons m names =>
      have hcons : Path.ofNames (n :: m :: names) = n ++ '/' :: Path.ofNames (m :: names) := by
        simp [Path.ofNames, Text.join, List.intercalate]
      rw [hcons, Text.pieces_cons hslash,
        ih (List.cons_ne_nil m names) fun k hk => h k (List.mem_cons_of_mem n hk)]

/-- A path made of names is relative. -/
lemma not_isAbsolute_ofNames {names : List Text} (h : ∀ n ∈ names, IsName n) :
    Path.isAbsolute (Path.ofNames names) = false := by
  cases names with
  | nil => rfl
  | cons n names =>
    obtain ⟨c, n, rfl⟩ := List.exists_cons_of_ne_nil (h n List.mem_cons_self).ne_nil
    have hc : c ≠ '/' := by
      rintro rfl
      exact (h _ List.mem_cons_self).slash List.mem_cons_self
    cases names <;> simpa [Path.isAbsolute, Path.ofNames, Text.join, List.intercalate] using hc

/-- Names make a path that is not empty. -/
lemma ofNames_ne_nil {names : List Text} (hne : names ≠ []) (h : ∀ n ∈ names, IsName n) :
    Path.ofNames names ≠ [] := by
  intro hnil
  have hpieces := pieces_ofNames hne h
  rw [hnil] at hpieces
  subst hpieces
  exact (h [] List.mem_cons_self).ne_nil rfl

/-- A path made of names does not end with a slash. -/
lemma getLast?_ofNames_ne {names : List Text} (h : ∀ n ∈ names, IsName n) :
    (Path.ofNames names).getLast? ≠ some '/' := by
  intro hlast
  obtain ⟨p, hp⟩ := List.getLast?_eq_some_iff.1 hlast
  have hne : names ≠ [] := by
    rintro rfl
    cases hlast
  have hpieces := pieces_ofNames hne h
  rw [hp, Text.pieces_append_cons] at hpieces
  exact (h [] (hpieces ▸ List.mem_append_right _ (List.mem_singleton.2 rfl))).ne_nil rfl

/-- A relative path goes on behind the path of a directory. -/
lemma Path.exists_join_eq (base : Path) :
    ∃ front, ∀ p : Path, p.isAbsolute = false → base.join p = base ++ (front ++ p) := by
  by_cases hbase : (base.isEmpty || base.getLast? == some '/') = true
  · refine ⟨[], fun p hp => ?_⟩
    rw [join, hp, if_neg Bool.false_ne_true, if_pos hbase]
    rfl
  · refine ⟨['/'], fun p hp => ?_⟩
    rw [join, hp, if_neg Bool.false_ne_true, if_neg hbase]
    rfl

/-- A relative path leads away from where it is put behind. -/
lemma Path.join_ne_self {base p : Path} (hne : p ≠ []) (hp : p.isAbsolute = false) :
    base.join p ≠ base := by
  obtain ⟨front, hjoin⟩ := Path.exists_join_eq base
  rw [hjoin p hp]
  simp [hne]

/-- Different relative paths stay different behind the same front. -/
lemma Path.join_inj {base p q : Path} (hp : p.isAbsolute = false) (hq : q.isAbsolute = false)
    (h : base.join p = base.join q) : p = q := by
  obtain ⟨front, hjoin⟩ := Path.exists_join_eq base
  rw [hjoin p hp, hjoin q hq] at h
  exact List.append_cancel_left (List.append_cancel_left h)

namespace FileTree

/-- The entries of the tree have names that can stand in paths. -/
def WellNamed (t : FileTree) : Prop :=
  ∀ l ∈ t.nodes.map Prod.fst, ∀ n ∈ l, IsName n

instance (t : FileTree) : Decidable (WellNamed t) :=
  inferInstanceAs (Decidable (∀ l ∈ t.nodes.map Prod.fst, ∀ n ∈ l, IsName n))

variable {t : FileTree}

/-- The names in a directory can stand in paths. -/
lemma WellNamed.isName (ht : WellNamed t) {dir : Location} {n : Text} (h : n ∈ t.names dir) :
    IsName n :=
  ht _ (mem_names_iff.1 h) n (by simp)

/-- Entries are named by what is where only. -/
lemma Alike.wellNamed {t' : FileTree} (h : Alike t t') (ht : WellNamed t) : WellNamed t' :=
  fun l hl => ht l ((h.locations l).1 hl)

/-- Names that do not meet a link lead to what is below the location by these names. -/
lemma follow_names {purpose : Purpose} {links : Nat} {l l' : Location} {names : List Text}
    (hnames : ∀ n ∈ names, IsName n)
    (hlink : ∀ ns, ns <+: names → ∀ target, t.get? (l ++ ns) ≠ some (.link target))
    (h : t.follow purpose links l names = .ok l') : l' = l ++ names := by
  induction names generalizing l with
  | nil =>
    rw [follow_nil] at h
    cases h
    simp
  | cons n names ih =>
    have hn := hnames n List.mem_cons_self
    rw [follow_cons, bind_eq_ok_iff] at h
    obtain ⟨s, hs, h⟩ := h
    cases (stepped_of_stepInto hs).2 with
    | stay hstay => exact absurd hstay (not_or.2 ⟨hn.ne_nil, hn.ne_current⟩)
    | up hup => exact absurd hup hn.ne_parent
    | last _ hlast =>
      subst hlast
      rw [follow_nil] at h
      cases h
      rfl
    | through k hk target hn => exact absurd hn (hlink [n] (by simp) target)
    | into =>
      have hrest : ∀ ns, ns <+: names →
          ∀ target, t.get? (l ++ [n] ++ ns) ≠ some (.link target) := by
        intro ns hns target
        rw [List.append_assoc]
        exact hlink (n :: ns) (List.cons_prefix_cons.2 ⟨rfl, hns⟩) target
      rw [ih (fun m hm => hnames m (List.mem_cons_of_mem n hm)) hrest h, List.append_assoc]
      rfl

/-- What a name leads on from is a directory with an entry of this name. -/
lemma mem_locations_of_follow {links : Nat} {l l' : Location} {n : Text} {parts : List Text}
    (hn : IsName n) (h : t.follow .content links l (n :: parts) = .ok l') :
    l ++ [n] ∈ t.nodes.map Prod.fst := by
  have hne : l ++ [n] ≠ [] := by simp
  rw [follow_cons, bind_eq_ok_iff] at h
  obtain ⟨s, hs, -⟩ := h
  cases (stepped_of_stepInto hs).2 with
  | stay hstay => exact absurd hstay (not_or.2 ⟨hn.ne_nil, hn.ne_current⟩)
  | up hup => exact absurd hup hn.ne_parent
  | last hlast => exact absurd rfl hlast
  | through k hk target hlink => exact mem_locations_of_get? hne (by rw [hlink]; rfl)
  | into node hnode => exact mem_locations_of_get? hne (by rw [hnode]; rfl)

/-- A path goes on from where its directory leads. -/
lemma exists_follow_join {links : Nat} {base start : Location} {root q : Path} (hroot : root ≠ [])
    (hq : Path.isAbsolute q = false)
    (h : t.follow .content links base (Text.pieces '/' root) = .ok start) :
    ∃ ps, t.follow .content links base ps = .ok start ∧
      Text.pieces '/' (Path.join root q) = ps ++ Text.pieces '/' q := by
  have hjoin : Path.join root q
      = if root.getLast? = some '/' then root ++ q else root ++ '/' :: q := by
    unfold Path.join
    rw [hq]
    simp [List.isEmpty_iff, hroot]
  rw [hjoin]
  split
  case isTrue hlast =>
    -- The root ends in a slash, so its last part is empty and leads nowhere else.
    obtain ⟨r, rfl⟩ := List.getLast?_eq_some_iff.1 hlast
    rw [Text.pieces_append_cons '/' r []] at h
    refine ⟨Text.pieces '/' r, (isDirectory_of_follow h).2, ?_⟩
    rw [List.append_assoc]
    exact Text.pieces_append_cons '/' r q
  case isFalse => exact ⟨Text.pieces '/' root, h, Text.pieces_append_cons '/' root q⟩

/-- A path leads somewhere if its parts do. -/
lemma follow_of_locate {p : Path} {l : Location} {purpose : Purpose}
    (h : t.locate purpose p = .ok l) :
    p ≠ [] ∧ t.follow purpose maxLinks (if Path.isAbsolute p then [] else t.here)
      (Text.pieces '/' p) = .ok l := by
  unfold locate at h
  split at h
  · cases h
  · split at h
    · cases h
    · split at h
      · cases h
      · exact ⟨by simp_all, h⟩

/-- A root and names of entries below it lead to the entry with these names, if they lead
anywhere and do not meet a link. -/
lemma locate_join {purpose : Purpose} {root : Path} {start l : Location} {names : List Text}
    (hroot : t.locate .content root = .ok start) (hne : names ≠ [])
    (hnames : ∀ n ∈ names, IsName n)
    (hlink : ∀ ns, ns <+: names → ∀ target, t.get? (start ++ ns) ≠ some (.link target))
    (h : t.locate purpose (Path.join root (Path.ofNames names)) = .ok l) : l = start ++ names := by
  obtain ⟨hr, hroot⟩ := follow_of_locate hroot
  obtain ⟨-, h⟩ := follow_of_locate h
  have hq := not_isAbsolute_ofNames hnames
  have habs : Path.isAbsolute (Path.join root (Path.ofNames names)) = Path.isAbsolute root := by
    obtain ⟨c, r, rfl⟩ := List.exists_cons_of_ne_nil hr
    unfold Path.join
    rw [hq]
    simp only [Bool.false_eq_true, if_false]
    split <;> rfl
  rw [habs] at h
  -- The path goes on with the names from where the root leads, with the links that are left then.
  obtain ⟨ps, hps, hjoin⟩ := exists_follow_join hr hq hroot
  obtain ⟨k, hk⟩ := follow_append (t := t) maxLinks (if Path.isAbsolute root then [] else t.here) ps
  have hempty : ¬names.all List.isEmpty := by
    obtain ⟨n, hn⟩ := List.exists_mem_of_ne_nil names hne
    intro hall
    exact (hnames n hn).ne_nil (by simpa using List.all_eq_true.1 hall n hn)
  rw [hjoin, pieces_ofNames hne hnames, hk _ _ (.inr hempty), hps, ok_bind] at h
  exact follow_names hnames hlink h

end FileTree

end SpdxHeaders
