import Mathlib.Algebra.GroupWithZero.Nat
import Mathlib.Data.List.Induction
import Mathlib.Data.List.Nodup
import Trivalent.Timing

/-!
# What a report counts

A fold by keys gives every key that occurs the fold of its own items.  So a report has one line for
every kind of queries that was answered, with their number and their duration: none is lost, and no
two are put together.  The lines are in the order of the kinds.
-/

namespace Trivalent

/-! ## Folds by keys -/

section FoldByKey

variable {α β κ : Type} [BEq κ] [Hashable κ] (key : α → κ) (initial : β) (step : β → α → β)

theorem foldByKey_concat (items : List α) (item : α) :
    foldByKey key initial step (items ++ [item]) =
      (foldByKey key initial step items).insert (key item)
        (step ((foldByKey key initial step items).getD (key item) initial) item) := by
  rw [foldByKey, List.foldl_append]
  rfl

/-- A key has the fold of its own items, if there are any. -/
theorem getElem?_foldByKey [LawfulBEq κ] (items : List α) (k : κ) :
    (foldByKey key initial step items)[k]? =
      if k ∈ items.map key then some ((items.filter (key · == k)).foldl step initial) else none := by
  induction items using List.reverseRecOn with
  | nil => simp [foldByKey]
  | append_singleton items item ih =>
      rw [foldByKey_concat, Std.HashMap.getElem?_insert, List.filter_append, List.foldl_append]
      by_cases same : key item = k
      · subst same
        have found : (foldByKey key initial step items).getD (key item) initial =
            (items.filter (key · == key item)).foldl step initial := by
          rw [Std.HashMap.getD_eq_getD_getElem?, ih]
          split
          · rfl
          · rename_i absent
            have none : items.filter (key · == key item) = [] := by
              simpa [List.filter_eq_nil_iff] using absent
            rw [none]
            rfl
        simp [found]
      · have members : k ∈ (items ++ [item]).map key ↔ k ∈ items.map key := by
          simp [Ne.symm same]
        rw [if_neg (by simpa using same), ih]
        simp only [members]
        simp [same]

end FoldByKey

/-! ## Kinds of queries -/

namespace Query

/-- The kind of a query: its phase, and whether it was satisfiable. -/
def kind (query : Query) : Phase × Bool :=
  (query.phase, query.satisfiable)

/-- The queries of a kind. -/
def ofKind (kind : Phase × Bool) (queries : List Query) : List Query :=
  queries.filter (·.kind = kind)

/-- The kinds of queries in order. -/
def kinds : List (Phase × Bool) :=
  [(.optimistic, true), (.optimistic, false), (.definite, true), (.definite, false)]

theorem mem_kinds (kind : Phase × Bool) : kind ∈ kinds := by
  obtain ⟨phase, satisfiable⟩ := kind
  cases phase <;> cases satisfiable <;> decide

theorem length_ofKind (queries : List Query) (kind : Phase × Bool) :
    (ofKind kind queries).length = (queries.map Query.kind).count kind := by
  rw [ofKind, ← List.countP_eq_length_filter, List.count, List.countP_map]
  apply List.countP_congr
  intro query _
  simp

theorem foldl_total (queries : List Query) (duration count : Nat) :
    queries.foldl (fun (duration, count) query => (duration + query.duration, count + 1))
      (duration, count) = (duration + total queries, count + queries.length) := by
  induction queries generalizing duration count with
  | nil => rfl
  | cons query rest ih =>
      rw [List.foldl_cons, ih, total, List.length_cons]
      ext <;> simp only <;> omega

/-- Every query is of one kind. -/
theorem sum_count_kinds (recorded : List (Phase × Bool)) :
    (kinds.map recorded.count).sum = recorded.length := by
  induction recorded with
  | nil => rfl
  | cons kind rest ih =>
      obtain ⟨phase, satisfiable⟩ := kind
      simp only [kinds, List.map_cons, List.map_nil, List.sum_cons, List.sum_nil,
        List.length_cons] at ih ⊢
      rw [← ih]
      cases phase <;> cases satisfiable <;> simp <;> omega

theorem sum_count_filter (recorded kinds : List (Phase × Bool)) :
    ((kinds.filter (· ∈ recorded)).map recorded.count).sum = (kinds.map recorded.count).sum := by
  induction kinds with
  | nil => rfl
  | cons kind rest ih =>
      by_cases occurs : kind ∈ recorded
      · simp [occurs, ih]
      · simp [occurs, ih, List.count_eq_zero_of_not_mem occurs]

end Query

namespace Timings

open Timing

/-! ## The order of entries -/

instance : Std.TransOrd Phase where
  eq_swap := by rintro ⟨⟩ ⟨⟩ <;> rfl
  isLE_trans := by rintro ⟨⟩ ⟨⟩ ⟨⟩ <;> decide

instance : Std.LawfulEqOrd Phase where
  eq_of_compare := by rintro ⟨⟩ ⟨⟩ <;> decide

namespace Entry

instance : Std.TransCmp Entry.compare :=
  let _ : Ord (Phase × Bool) := lexOrd
  let _ : Ord (Nat × Nat) := lexOrd
  have : Std.TransOrd (Phase × Bool) := inferInstance
  inferInstanceAs (Std.TransCmp (@lexOrd (Phase × Bool) (Nat × Nat) _ _).compare)

instance : Std.LawfulEqCmp Entry.compare :=
  let _ : Ord (Phase × Bool) := lexOrd
  let _ : Ord (Nat × Nat) := lexOrd
  inferInstanceAs (Std.LawfulEqCmp (@lexOrd (Phase × Bool) (Nat × Nat) _ _).compare)

theorem isLE_total (e e' : Entry) : ((compare e e').isLE || (compare e' e).isLE) = true := by
  rw [← Std.OrientedCmp.isGE_eq_isLE (a := e)]
  cases compare e e' <;> rfl

theorem eq_of_isLE {e e' : Entry} (before : (compare e e').isLE = true)
    (behind : (compare e' e).isLE = true) : e = e' :=
  Std.LawfulEqCmp.eq_of_compare (Std.OrientedCmp.isLE_antisymm before behind)

/-- The order of two kinds is that of their entries. -/
theorem isLE_of_lt {k k' : Phase × Bool} (before : lexOrd.compare k k' = .lt) (v v' : Nat × Nat) :
    (compare (k, v) (k', v')).isLE = true := by
  show ((lexOrd.compare k k').then _).isLE = true
  rw [before]
  rfl

/-- The entry of a kind. -/
def ofKind (queries : List Query) (kind : Phase × Bool) : Entry :=
  ((kind.1, !kind.2), (Query.total (Query.ofKind kind queries), (Query.ofKind kind queries).length))

theorem line_ofKind (queries : List Query) (kind : Phase × Bool) :
    (ofKind queries kind).line =
      "    " ++ padEnd 20 (kind.1.name ++ " " ++ (if kind.2 then "sat" else "unsat")) ++ ": " ++
        seconds (inSeconds (Query.total (Query.ofKind kind queries))) ++ " " ++
          counted (Query.ofKind kind queries).length := by
  obtain ⟨phase, satisfiable⟩ := kind
  cases satisfiable <;> rfl

end Entry

/-! ## The entries of a report -/

/-- The kinds of the queries that were answered, in order. -/
def kinds (queries : List Query) : List (Phase × Bool) :=
  Query.kinds.filter (· ∈ queries.map Query.kind)

theorem getElem?_byKind (queries : List Query) (kind : Phase × Bool) :
    (byKind queries)[(kind.1, !kind.2)]? =
      if kind ∈ kinds queries then some (Entry.ofKind queries kind).2 else none := by
  have same (query : Query) :
      (query.phase, !query.satisfiable) = (kind.1, !kind.2) ↔ query.kind = kind := by
    rw [Prod.ext_iff, Prod.ext_iff, Query.kind, Bool.not_inj_iff]
  have items : queries.filter (fun query =>
      (query.phase, !query.satisfiable) == (kind.1, !kind.2)) = Query.ofKind kind queries := by
    apply List.filter_congr
    intro query _
    rw [Bool.eq_iff_iff, beq_iff_eq, decide_eq_true_iff, same]
  have occurs : (kind.1, !kind.2) ∈ queries.map (fun query => (query.phase, !query.satisfiable)) ↔
      kind ∈ kinds queries := by
    simp only [kinds, List.mem_filter, Query.mem_kinds, List.mem_map, same, true_and,
      decide_eq_true_eq]
  rw [byKind, getElem?_foldByKey, items, Query.foldl_total, Nat.zero_add, Nat.zero_add]
  simp only [occurs]
  rfl

theorem pairwise_ofKind (queries : List Query) :
    ((kinds queries).map (Entry.ofKind queries)).Pairwise fun e e' =>
      (Entry.compare e e').isLE = true := by
  have sorted : Query.kinds.Pairwise fun k k' =>
      lexOrd.compare (k.1, !k.2) (k'.1, !k'.2) = .lt := by
    decide
  rw [List.pairwise_map]
  exact (sorted.filter _).imp fun before => Entry.isLE_of_lt before _ _

theorem nodup_ofKind (queries : List Query) :
    ((kinds queries).map (Entry.ofKind queries)).Nodup := by
  have distinct : Query.kinds.Nodup := by decide
  apply (distinct.filter _).map
  intro k k' same
  obtain ⟨phase, answer⟩ := Prod.ext_iff.mp (congrArg Prod.fst same)
  exact Prod.ext phase (Bool.not_inj answer)

/-- Every kind that occurs has one entry, and there are no others. -/
theorem perm_byKind (queries : List Query) :
    (byKind queries).toList.Perm ((kinds queries).map (Entry.ofKind queries)) := by
  have distinct : (byKind queries).toList.Nodup := by
    refine Std.HashMap.distinct_keys_toList.imp ?_
    rintro e e' differ rfl
    simp at differ
  rw [List.perm_ext_iff_of_nodup distinct (nodup_ofKind queries)]
  rintro ⟨⟨phase, unsatisfiable⟩, value⟩
  have found := getElem?_byKind queries (phase, !unsatisfiable)
  rw [Bool.not_not] at found
  rw [Std.HashMap.mem_toList_iff_getElem?_eq_some, found, List.mem_map]
  constructor
  · intro isValue
    split at isValue
    · rename_i occurs
      refine ⟨_, occurs, ?_⟩
      rw [← Option.some.inj isValue]
      simp [Entry.ofKind]
    · contradiction
  · rintro ⟨⟨phase', satisfiable⟩, occurs, same⟩
    obtain ⟨⟨rfl, rfl⟩, rfl⟩ := Prod.ext_iff.mp same
    rw [Bool.not_not, if_pos occurs]

/-- The entries of a report are those of the kinds that occur, in order. -/
theorem mergeSort_byKind (queries : List Query) :
    ((byKind queries).toList.mergeSort fun e e' => (Entry.compare e e').isLE) =
      (kinds queries).map (Entry.ofKind queries) := by
  apply List.Perm.eq_of_pairwise (fun e e' _ _ => Entry.eq_of_isLE)
  · exact List.pairwise_mergeSort (fun _ _ _ => Std.TransCmp.isLE_trans) Entry.isLE_total _
  · exact pairwise_ofKind queries
  · exact (List.mergeSort_perm _ _).trans (perm_byKind queries)

/-- The numbers of the lines add up. -/
theorem sum_kinds (queries : List Query) :
    ((kinds queries).map fun kind => (Query.ofKind kind queries).length).sum = queries.length := by
  simp only [Query.length_ofKind]
  rw [kinds, Query.sum_count_filter, Query.sum_count_kinds, List.length_map]

/-- The report on queries of the kinds `recorded`: a line for every kind that occurs, in the order of
kinds, between the lines for all of them; the numbers of queries are those of `recorded`, and those of
the lines add up. -/
structure Tallies (recorded : List (Phase × Bool)) (timings : Timings) (now : Nat) : Prop where
  report : timings.report now =
    let total := inSeconds (now - timings.start)
    let inSolver := inSeconds (Query.total timings.queries)
    "\n".intercalate (
      [padEnd 24 "total" ++ ": " ++ seconds total,
        "  " ++ padEnd 22 "solver total" ++ ": " ++ seconds inSolver ++ " " ++
          counted timings.queries.length] ++
      ([(Phase.optimistic, true), (.optimistic, false), (.definite, true),
          (.definite, false)].filter (· ∈ recorded)).map (fun kind =>
        let queries := Query.ofKind kind timings.queries
        "    " ++ padEnd 20 (kind.1.name ++ " " ++ (if kind.2 then "sat" else "unsat")) ++ ": " ++
          seconds (inSeconds (Query.total queries)) ++ " " ++ counted queries.length) ++
      ["  " ++ padEnd 22 "outside solver" ++ ": " ++ difference total inSolver])
  counted (kind : Phase × Bool) :
    (Query.ofKind kind timings.queries).length = recorded.count kind
  total : ((Query.kinds.filter (· ∈ recorded)).map fun kind =>
    (Query.ofKind kind timings.queries).length).sum = timings.queries.length

theorem tallies {recorded : List (Phase × Bool)} {timings : Timings}
    (kinds : timings.queries.map Query.kind = recorded) (now : Nat) :
    Tallies recorded timings now := by
  subst kinds
  constructor
  case report =>
    rw [Timings.report, mergeSort_byKind, List.map_map]
    simp only [Function.comp_def, Entry.line_ofKind]
    rfl
  case counted => exact Query.length_ofKind timings.queries
  case total => exact sum_kinds timings.queries

end Timings

end Trivalent
