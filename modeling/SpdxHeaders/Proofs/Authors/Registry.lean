import Mathlib.Data.List.Sort
import Mathlib.Tactic.Tauto
import SpdxHeaders.Proofs.Authors
import SpdxHeaders.Proofs.Text.ByteOrder

/-!
# What a registry makes of its calls

A registry is told entries in batches, and asked for the author list in between. It holds what its
calls add (`mem_entries_run_iff`), and being asked changes nothing (`run_finalize`). So its list
depends on the set of entries only, whatever the batches, their order and their repeats
(`finalize_of_history`).
-/

namespace SpdxHeaders.Authors

/-- What a registry is told or asked. -/
inductive Call where
  /-- Entries are added. -/
  | extend (batch : List Text)
  /-- The author list is asked for. -/
  | finalize
  deriving DecidableEq, Repr

/-- Some call adds the entry. -/
def Adds (calls : List Call) (a : Text) : Prop :=
  ∃ batch, .extend batch ∈ calls ∧ a ∈ batch

namespace Registry

/-- Takes a call: the registry behind it, and the list that is answered if it asks for one. -/
def take (r : Registry) : Call → Registry × List (List Text)
  | .extend batch => (r.extend batch, [])
  | .finalize => (r, [r.finalize])

/-- Takes calls one after the other: the registry behind them, and the lists that are answered. -/
def run (r : Registry) : List Call → Registry × List (List Text)
  | [] => (r, [])
  | call :: calls => (((r.take call).1.run calls).1, (r.take call).2 ++ ((r.take call).1.run calls).2)

variable {r : Registry} {calls : List Call} {call : Call} {a : Text}

/-- Calls that are taken behind others go on with the registry that these leave. -/
lemma run_append (r : Registry) (calls later : List Call) :
    r.run (calls ++ later)
      = (((r.run calls).1.run later).1, (r.run calls).2 ++ ((r.run calls).1.run later).2) := by
  induction calls generalizing r with
  | nil => rfl
  | cons call calls ih =>
    rw [List.cons_append, run, ih, run, List.append_assoc]

/-- Asking for the list answers it and leaves the registry as it is. -/
lemma run_finalize (r : Registry) (later : List Call) :
    r.run (.finalize :: later) = ((r.run later).1, r.finalize :: (r.run later).2) :=
  rfl

/-- A call adds its batch. -/
lemma mem_entries_take_iff : a ∈ (r.take call).1.entries ↔ a ∈ r.entries ∨ Adds [call] a := by
  cases call with
  | extend batch =>
    rw [take, extend, List.mem_append, Adds]
    simp
  | finalize =>
    rw [take, Adds]
    simp

/-- A registry holds what it held before and what the calls add. -/
lemma mem_entries_run_iff : a ∈ (r.run calls).1.entries ↔ a ∈ r.entries ∨ Adds calls a := by
  induction calls generalizing r with
  | nil => simp [run, Adds]
  | cons call calls ih =>
    have hcons : Adds (call :: calls) a ↔ Adds [call] a ∨ Adds calls a := by
      simp only [Adds, List.mem_cons, List.not_mem_nil, or_false, or_and_right, exists_or]
    rw [run, ih, mem_entries_take_iff, hcons, or_assoc]

/-- The list of a registry holds what the calls add. -/
lemma mem_finalize_run_iff : a ∈ (run {} calls).1.finalize ↔ Adds calls a := by
  rw [finalize, mem_ofEntries, mem_entries_run_iff]
  exact or_iff_right List.not_mem_nil

/-- The finished list of a registry is in strict order. -/
lemma pairwise_finalize (r : Registry) : r.finalize.Pairwise (· < ·) :=
  pairwise_ofEntries r.entries

/-- Lists in strict order are the same if their members are. -/
lemma finalize_eq_of_mem_iff {list : List Text} (hlist : list.Pairwise (· < ·))
    (hmem : ∀ a, a ∈ r.entries ↔ a ∈ list) : r.finalize = list :=
  List.Pairwise.eq_of_mem_iff r.pairwise_finalize hlist fun a => mem_ofEntries.trans (hmem a)

/-- Every entry is listed once. -/
lemma nodup_finalize (r : Registry) : r.finalize.Nodup := by
  refine r.pairwise_finalize.imp ?_
  rintro a _ h rfl
  exact List.lt_irrefl a h

/-- The list that a registry answers depends on the set of entries only that its calls have added:
it holds each of them once and nothing else, in strict order by code points, which is the order by
bytes too. Asking for it in between answers the list of the calls so far, and all that is answered
later is as if nobody had asked. -/
theorem finalize_of_history (calls : List Call) :
    let list (calls : List Call) := (run {} calls).1.finalize
    (∀ others, (∀ a, Adds calls a ↔ Adds others a) → list calls = list others) ∧
    (list calls).Pairwise (· < ·) ∧
    (list calls).Pairwise (fun a b => a.bytes < b.bytes) ∧
    (∀ a, (Adds calls a → (list calls).count a = 1) ∧ (a ∈ list calls → Adds calls a)) ∧
    ∀ later, (run {} (calls ++ .finalize :: later)).1 = (run {} (calls ++ later)).1 ∧
      ∃ answers, (run {} (calls ++ later)).2 = (run {} calls).2 ++ answers ∧
        (run {} (calls ++ .finalize :: later)).2 = (run {} calls).2 ++ list calls :: answers := by
  intro list
  refine ⟨fun others hsame => ?_, pairwise_finalize _, ?_, fun a => ⟨fun hadds => ?_, ?_⟩,
    fun later => ⟨?_, ((run {} calls).1.run later).2, ?_, ?_⟩⟩
  · refine finalize_eq_of_mem_iff (pairwise_finalize _) fun a => ?_
    rw [mem_finalize_run_iff, mem_entries_run_iff, or_iff_right List.not_mem_nil]
    exact hsame a
  · exact (pairwise_finalize _).imp Text.bytes_lt_bytes
  · exact List.count_eq_one_of_mem (nodup_finalize _) (mem_finalize_run_iff.2 hadds)
  · exact mem_finalize_run_iff.1
  · rw [run_append, run_append, run_finalize]
  · rw [run_append]
  · rw [run_append, run_finalize]

/-- Other batches, in another order and with a repeat, make the same list. -/
theorem finalize_of_history_repeated :
    let calls : List Call := [.extend ["Zoe", "Al"], .extend [], .finalize, .extend ["al"]]
    let others : List Call := [.extend ["al", "Al"], .extend ["Zoe", "al"]]
    (∀ a, Adds calls a ↔ Adds others a) ∧
      (run {} calls).1.finalize = (run {} others).1.finalize ∧
      (run {} calls).2 = [["Al".toList, "Zoe".toList]] ∧
      (run {} others).1.finalize = ["Al".toList, "Zoe".toList, "al".toList] := by
  intro calls others
  have hsame : ∀ a, Adds calls a ↔ Adds others a := by
    intro a
    simp only [Adds, calls, others, List.mem_cons, List.not_mem_nil, or_false, exists_eq_or_imp,
      Call.extend.injEq, reduceCtorEq]
    simp
    tauto
  have hanswer : finalize ⟨["Zoe", "Al"]⟩ = ["Al".toList, "Zoe".toList] :=
    finalize_eq_of_mem_iff (by decide) fun a => by simp [or_comm]
  have hlist : finalize ⟨["al", "Al", "Zoe", "al"]⟩ = ["Al".toList, "Zoe".toList, "al".toList] :=
    finalize_eq_of_mem_iff (by decide) fun a => by simp; tauto
  exact ⟨hsame, (finalize_of_history calls).1 others hsame, congrArg (fun l => [l]) hanswer, hlist⟩

end Registry

end SpdxHeaders.Authors
