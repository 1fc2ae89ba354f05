import Mathlib.Tactic.Lemma
import SpdxHeaders.Proofs.Collector.Rules
import SpdxHeaders.Proofs.Ignore.Precedence

/-!
# The events of a walk

A walk is determined by the trees it sees. The main facts are that folding along a walk is folding
over its events (`fold_eq_foldl_walk`), and that trees which look alike and have the same ignore
rules give the same walk (`walk_congr`), or the same until a property holds if they look alike until
then (`walk_sameUntil`).
-/

namespace SpdxHeaders.Collector

/-- The events of a walk, with one more event. -/
abbrev meet (es : List WalkEvent) (e : WalkEvent) : List WalkEvent :=
  es ++ [e]

/-- What is met on a walk that sees the tree `look es` after the events `es`. -/
def walk (c : Collector) (look : List WalkEvent → FileTree) : List WalkEvent :=
  c.fold look meet []

/-- What is met in a tree that stays as it is. -/
lemma walk_const (c : Collector) (t : FileTree) : c.walk (fun _ => t) = c.events t :=
  rfl

/-- What a walk does at an entry of a directory. The tree and the rules are those that were seen
when the directory was entered. -/
def atEntry {σ : Type} (view : σ → FileTree) (visit : σ → WalkEvent → σ) (c : Collector)
    (start : Location) (depth : Nat) (t : FileTree) (rules : IgnoreRules) (names : List Text)
    (s : σ) (name : Text) : σ :=
  let names := names ++ [name]
  let l := start ++ names
  let skips := rules.skips l (pathFromHere t (c.pathOf names))
  match t.get? l with
  | some .directory =>
    if skips true || c.prunes t names then s else c.foldBelow view visit start depth rules names s
  | some (.file _) => if skips false then s else visit s (c.event names)
  | _ => s

/-- A walk below a directory takes the entries in the order of their names. -/
lemma foldBelow_succ {σ : Type} (view : σ → FileTree) (visit : σ → WalkEvent → σ) (c : Collector)
    (start : Location) (depth : Nat) (rules : IgnoreRules) (names : List Text) (s : σ) :
    c.foldBelow view visit start (depth + 1) rules names s
      = ((view s).names (start ++ names)).foldl
          (c.atEntry view visit start depth (view s)
            (rules.enter (view s) (start ++ names)) names) s :=
  rfl

section Entries
variable {σ : Type} {view : σ → FileTree} {visit : σ → WalkEvent → σ} {c : Collector}
  {start : Location} {depth : Nat} {t : FileTree} {rules : IgnoreRules} {names : List Text} {s : σ}
  {name : Text}

/-- A file is met unless it is skipped. -/
lemma atEntry_file {bytes : ByteArray}
    (h : t.get? (start ++ (names ++ [name])) = some (.file bytes)) :
    c.atEntry view visit start depth t rules names s name
      = if rules.skips (start ++ (names ++ [name]))
            (pathFromHere t (c.pathOf (names ++ [name]))) false
        then s else visit s (c.event (names ++ [name])) := by
  unfold atEntry
  dsimp only
  rw [h]

/-- A directory is walked through unless it is ignored or pruned. -/
lemma atEntry_directory (h : t.get? (start ++ (names ++ [name])) = some .directory) :
    c.atEntry view visit start depth t rules names s name
      = if rules.skips (start ++ (names ++ [name]))
            (pathFromHere t (c.pathOf (names ++ [name]))) true || c.prunes t (names ++ [name])
        then s else c.foldBelow view visit start depth rules (names ++ [name]) s := by
  unfold atEntry
  dsimp only
  rw [h]

/-- Links are passed over. -/
lemma atEntry_link {target : Path} (h : t.get? (start ++ (names ++ [name])) = some (.link target)) :
    c.atEntry view visit start depth t rules names s name = s := by
  unfold atEntry
  dsimp only
  rw [h]
end Entries

section Hom
variable {σ τ : Type} {view : σ → FileTree} {visit : σ → WalkEvent → σ} {view' : τ → FileTree}
  {visit' : τ → WalkEvent → τ} {π : σ → τ}

/-- A map of states that commutes with each visit commutes with the walk below a directory. -/
lemma foldBelow_hom (hview : ∀ s, view' (π s) = view s)
    (hvisit : ∀ s e, visit' (π s) e = π (visit s e)) (c : Collector) (start : Location)
    (depth : Nat) (rules : IgnoreRules) (names : List Text) (s : σ) :
    c.foldBelow view' visit' start depth rules names (π s)
      = π (c.foldBelow view visit start depth rules names s) := by
  induction depth generalizing rules names s with
  | zero => rfl
  | succ depth ih =>
    rw [foldBelow_succ, foldBelow_succ, hview]
    apply List.foldl_hom π
    intro s name
    unfold atEntry
    dsimp only
    split
    · split
      · rfl
      · exact ih ..
    · split
      · rfl
      · exact hvisit ..
    · rfl

/-- A map of states that commutes with each visit commutes with the walk. -/
lemma fold_hom (hview : ∀ s, view' (π s) = view s) (hvisit : ∀ s e, visit' (π s) e = π (visit s e))
    (c : Collector) (s : σ) : c.fold view' visit' (π s) = π (c.fold view visit s) := by
  unfold fold
  rw [hview]
  dsimp only
  split
  · exact hvisit ..
  · split
    · split
      · exact foldBelow_hom hview hvisit ..
      · rw [hvisit]
        exact foldBelow_hom hview hvisit ..
    · exact hvisit ..

/-- Folding along a walk is folding over what is met, which sees the trees of the fold. -/
theorem fold_eq_foldl_walk (c : Collector) (view : σ → FileTree) (visit : σ → WalkEvent → σ)
    (s : σ) :
    c.fold view visit s = (c.walk fun es => view (es.foldl visit s)).foldl visit s := by
  refine fold_hom (π := fun es => es.foldl visit s) (fun _ => rfl) (fun es e => ?_) c []
  simp

end Hom

/-- A walk of a directory without faulty rules above begins with its entries. -/
lemma walk_of_directory {c : Collector} {start : Location} {look : List WalkEvent → FileTree}
    (hroot : (look []).locate .content c.root = .ok start)
    (hdir : (look []).get? start = some .directory)
    (habove : (layersAbove (look []) start).reverse.flatMap IgnoreLayer.messages = []) :
    c.walk look = c.foldBelow look meet start ((look []).depth + 1)
      ⟨layersAbove (look []) start, UserRules.read (look [])⟩ [] [] := by
  unfold walk fold
  dsimp only
  rw [hroot]
  dsimp only
  rw [hdir, habove]
  rfl

/-- A walk of a directory without ignore rules meets all files that are not hidden, if only hidden
entries are no files. -/
lemma walk_of_files {c : Collector} {start : Location} {look : List WalkEvent → FileTree}
    (hrules : WithoutRules (look [])) (hhome : (look []).home = none)
    (hroot : (look []).locate .content c.root = .ok start)
    (hdir : (look []).get? start = some .directory)
    (hfiles : ∀ n ∈ (look []).names start, IgnoreRules.isHidden n = false →
      ∃ bytes, (look []).get? (start ++ [n]) = some (.file bytes)) :
    c.walk look = (((look []).names start).filter fun n => !IgnoreRules.isHidden n).map
      fun n => c.event [n] := by
  have hlayers : ∀ layer ∈ layersAbove (look []) start, layer = ⟨layer.base, {}, {}, {}⟩ := by
    unfold layersAbove
    simp [hrules.read]
  have habove : (layersAbove (look []) start).reverse.flatMap IgnoreLayer.messages = [] := by
    apply List.flatMap_eq_nil_iff.2
    intro layer hlayer
    rw [hlayers layer (List.mem_reverse.1 hlayer)]
    rfl
  rw [walk_of_directory hroot hdir habove, foldBelow_succ, List.append_nil]
  have hskips (l : Location) (p : Path) (isDirectory : Bool) :
      (IgnoreRules.enter ⟨layersAbove (look []) start, UserRules.read (look [])⟩ (look [])
        start).skips l p isDirectory = (l.getLast?.map IgnoreRules.isHidden).getD false :=
    IgnoreRules.skips_of_no_rules
      (by simp [IgnoreRules.enter, UserRules.read, UserRules.file?, hhome])
      (by simpa [IgnoreRules.enter, hrules.read] using hlayers) l p isDirectory
  have hfold (ns : List Text) (es : List WalkEvent) (hns : ∀ n ∈ ns, n ∈ (look []).names start) :
      ns.foldl (c.atEntry look meet start (look []).depth (look [])
        (IgnoreRules.enter ⟨layersAbove (look []) start, UserRules.read (look [])⟩ (look []) start)
        []) es = es ++ (ns.filter fun n => !IgnoreRules.isHidden n).map fun n => c.event [n] := by
    induction ns generalizing es with
    | nil => simp
    | cons n ns ih =>
      rw [List.foldl_cons, ih _ fun m hm => hns m (List.mem_cons_of_mem n hm)]
      cases hhidden : IgnoreRules.isHidden n with
      | true =>
        -- A hidden entry is skipped, whatever it is.
        unfold atEntry
        simp only [hskips]
        simp only [List.nil_append, List.getLast?_append, List.getLast?_singleton, Option.some_or,
          Option.map_some, hhidden, Option.getD_some, Bool.true_or, if_true]
        split <;> simp [hhidden]
      | false =>
        obtain ⟨bytes, hfile⟩ := hfiles n (hns n List.mem_cons_self) hhidden
        rw [atEntry_file hfile, hskips]
        simp [hhidden, meet]
  rw [hfold _ _ fun n hn => hn, List.nil_append]

section Congr
variable {c : Collector} {look look' : List WalkEvent → FileTree} {start : Location}

/-- Steps that only add to what was met do so one after the other. -/
lemma prefix_foldl {f : List WalkEvent → Text → List WalkEvent} (hf : ∀ es n, es <+: f es n)
    (es : List WalkEvent) (ns : List Text) : es <+: ns.foldl f es := by
  induction ns generalizing es with
  | nil => exact List.prefix_rfl
  | cons n ns ih => exact (hf es n).trans (ih (f es n))

/-- What was met before an entry stays in front. -/
lemma prefix_atEntry {depth : Nat}
    (hbelow : ∀ rules names es, es <+: c.foldBelow look meet start depth rules names es)
    (t : FileTree) (rules : IgnoreRules) (names : List Text) (es : List WalkEvent) (name : Text) :
    es <+: c.atEntry look meet start depth t rules names es name := by
  unfold atEntry
  dsimp only
  split
  · split
    · exact List.prefix_rfl
    · exact hbelow ..
  · split
    · exact List.prefix_rfl
    · exact List.prefix_append ..
  · exact List.prefix_rfl

/-- A walk below a directory only adds to what was met before. -/
lemma prefix_foldBelow (depth : Nat) (rules : IgnoreRules) (names : List Text)
    (es : List WalkEvent) : es <+: c.foldBelow look meet start depth rules names es := by
  induction depth generalizing rules names es with
  | zero => exact List.prefix_rfl
  | succ depth ih =>
    rw [foldBelow_succ]
    exact prefix_foldl (prefix_atEntry ih _ _ _) es _

/-- Two walks meet the same, or at least what has the property is the same. -/
def SameUntil (Q : List WalkEvent → Prop) (es es' : List WalkEvent) : Prop :=
  es' = es ∨ ∃ common, Q common ∧ common <+: es ∧ common <+: es'

variable {Q : List WalkEvent → Prop}

/-- Steps that agree until a property holds agree one after the other until it holds. -/
lemma sameUntil_foldl {P : List WalkEvent → Prop} {f g : List WalkEvent → Text → List WalkEvent}
    (hf : ∀ es n, es <+: f es n) (hg : ∀ es n, es <+: g es n)
    (hfg : ∀ es n, (∀ es', es' <+: g es n → ¬Q es' → P es') → SameUntil Q (g es n) (f es n))
    (es : List WalkEvent) (ns : List Text) (h : ∀ es', es' <+: ns.foldl g es → ¬Q es' → P es') :
    SameUntil Q (ns.foldl g es) (ns.foldl f es) := by
  induction ns generalizing es with
  | nil => exact .inl rfl
  | cons n ns ih =>
    rw [List.foldl_cons, List.foldl_cons]
    have hstep := hfg es n fun es' hes' => h es' (hes'.trans (prefix_foldl hg (g es n) ns))
    rcases hstep with heq | ⟨common, hQ, hcommon, hcommon'⟩
    · rw [heq]
      exact ih (g es n) h
    · exact .inr ⟨common, hQ, hcommon.trans (prefix_foldl hg _ ns),
        hcommon'.trans (prefix_foldl hf _ ns)⟩

/-- Walks below a directory that see trees which look alike until a property holds meet the same
until it holds. -/
lemma sameUntil_foldBelow (depth : Nat) (rules : IgnoreRules) (names : List Text)
    (es : List WalkEvent)
    (h : ∀ es', es' <+: c.foldBelow look meet start depth rules names es → ¬Q es' →
      LooksLike start (look es') (look' es')) :
    SameUntil Q (c.foldBelow look meet start depth rules names es)
      (c.foldBelow look' meet start depth rules names es) := by
  induction depth generalizing rules names es with
  | zero => exact .inl rfl
  | succ depth ih =>
    by_cases hQ : Q es
    · exact .inr ⟨es, hQ, prefix_foldBelow .., prefix_foldBelow ..⟩
    obtain ⟨halike, hrules⟩ := h es (prefix_foldBelow ..) hQ
    have henter :
        rules.enter (look' es) (start ++ names) = rules.enter (look es) (start ++ names) := by
      unfold IgnoreRules.enter
      rw [hrules _ (List.prefix_append ..)]
    rw [foldBelow_succ] at h
    rw [foldBelow_succ, foldBelow_succ, henter, halike.names]
    -- Both walks know the names of the directory already, so it is left to compare their entries.
    refine sameUntil_foldl (prefix_atEntry (prefix_foldBelow depth) _ _ _)
      (prefix_atEntry (prefix_foldBelow depth) _ _ _) ?_ es _ h
    intro es' n hes'
    have hhere (p : Path) : pathFromHere (look' es) p = pathFromHere (look es) p := by
      unfold pathFromHere
      rw [halike.here]
    have hshape := halike.shape (start ++ (names ++ [n]))
    -- By cases on the shape of the entry, which is the same in both trees.
    unfold atEntry at hes' ⊢
    simp only [hhere, c.prunes_congr halike.garbled] at hes' ⊢
    revert hshape hes'
    generalize (look es).get? (start ++ (names ++ [n])) = node,
      (look' es).get? (start ++ (names ++ [n])) = node'
    rintro hes' (_ | _ | _ | _)
    · exact .inl rfl
    · exact .inl rfl
    · exact .inl rfl
    · dsimp only at hes' ⊢
      split
      case isTrue => exact .inl rfl
      case isFalse hskip =>
        rw [if_neg hskip] at hes'
        exact ih _ _ _ hes'

/-- Walks that begin in trees which are alike and have the same rules, and go on in trees which look
alike until a property holds, meet the same until it holds. -/
theorem walk_sameUntil (halike : (look []).Alike (look' []))
    (hrules : SameRules c.root (look []) (look' []))
    (h : ∀ start es, (look []).locate .content c.root = .ok start → es <+: c.walk look → ¬Q es →
      LooksLike start (look es) (look' es)) :
    SameUntil Q (c.walk look) (c.walk look') := by
  unfold walk at h ⊢
  unfold fold at h ⊢
  dsimp only at h ⊢
  rw [halike.locate]
  cases hstart : (look []).locate .content c.root with
  | error fault => exact .inl rfl
  | ok start =>
    have hshape := halike.shape start
    dsimp only
    simp only [hstart] at h
    rw [hrules.layersAbove hstart List.prefix_rfl, hrules.own, halike.depth]
    revert hshape h
    generalize (look []).get? start = node, (look' []).get? start = node'
    rintro (_ | _ | _ | _) h
    · exact .inl rfl
    · exact .inl rfl
    · exact .inl rfl
    · exact sameUntil_foldBelow _ _ _ _ fun es hes => h start es rfl hes

/-- Walks that begin in trees which are alike and have the same rules, and go on in trees which look
alike, meet the same. -/
theorem walk_congr (halike : (look []).Alike (look' []))
    (hrules : SameRules c.root (look []) (look' []))
    (h : ∀ start es, (look []).locate .content c.root = .ok start → es <+: c.walk look →
      LooksLike start (look es) (look' es)) : c.walk look' = c.walk look := by
  have hsame := walk_sameUntil (Q := fun _ => False) halike hrules fun start es hstart hes _ =>
    h start es hstart hes
  exact hsame.resolve_right fun ⟨_, hfalse, _⟩ => hfalse

end Congr

end SpdxHeaders.Collector
