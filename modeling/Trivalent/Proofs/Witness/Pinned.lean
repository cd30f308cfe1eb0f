import Trivalent.Proofs.System.Equality
import Trivalent.Proofs.Witness.Shown

/-!
# What a witness pins

The formula of a witness in a system, which may be another one than the witness is of, is true
exactly where the system follows the witness: at every step its processes are at the locations that
the witness shows and its predicates have the statuses that the witness knows.  What only one of the
two systems has is left open, and so is a status that is unknown.
-/

namespace Trivalent

/-! ## States that are followed -/

/-- The state that a valuation gives step `t` of a concrete system is the one that an entry of a
witness of an abstract system shows, for the processes and predicates that both have, except for
statuses that are unknown. -/
structure WitnessStep.IsFollowed (abstract concrete : System) (entry : WitnessStep) (v : Valuation)
    (t : Nat) : Prop where
  location : ∀ p, p < abstract.processes.length → p < concrete.processes.length →
    ∃ l, entry.locations[p]? = some l ∧ Encoding.locationOf concrete v p t = .ok l
  status : ∀ name i j, abstract.predicateId? name = some i → concrete.predicateId? name = some j →
    ∃ status, entry.predicates.get? name = some status ∧
      (status ≠ .unknown → Encoding.decodeStatus v j t = status)

namespace WitnessStep

variable {abstract concrete : System} {fairness : Bool} {u v : Valuation} {entry : WitnessStep}
  {t p l : Nat}

theorem getElem?_locations_read :
    (read abstract fairness u t).locations[p]? = some l ↔
      p < abstract.processes.length ∧ (u.stateAt abstract t).location p = l := by
  rw [← mem_zipIdx_map_range, List.mem_zipIdx_iff_getElem?]
  rfl

/-- What is read at a step is followed by the states that it covers. -/
theorem isFollowed_read_iff (fits : concrete.Fits) :
    (read abstract fairness u t).IsFollowed abstract concrete v t ↔
      System.Covers abstract concrete (u.stateAt abstract t) (v.stateAt concrete t) := by
  constructor
  · intro followed
    constructor
    · intro p insideFirst insideSecond
      obtain ⟨l, found, place⟩ := followed.location p insideFirst insideSecond
      rw [Encoding.locationOf_of_fits fits insideSecond, Except.ok.injEq] at place
      rw [(getElem?_locations_read.mp found).2, place]
    · intro name i j isFirst isSecond
      obtain ⟨status, found, known⟩ := followed.status name i j isFirst isSecond
      obtain rfl := Option.some.inj ((NameTable.get?_mapValues isFirst).symm.trans found)
      by_cases unknown : (u.stateAt abstract t).status i = .unknown
      · exact .inl unknown
      · exact .inr (known unknown).symm
  · intro covers
    constructor
    · intro p insideFirst insideSecond
      refine ⟨_, getElem?_locations_read.mpr ⟨insideFirst, rfl⟩, ?_⟩
      rw [Encoding.locationOf_of_fits fits insideSecond,
        covers.location p insideFirst insideSecond]
    · intro name i j isFirst isSecond
      refine ⟨_, NameTable.get?_mapValues isFirst, fun known => ?_⟩
      exact ((covers.status name i j isFirst isSecond).resolve_left known).symm

/-- A state with a location that has no name in the other system is not followed. -/
theorem not_isFollowed_of_le (fits : concrete.Fits) (insideFirst : p < abstract.processes.length)
    (insideSecond : p < concrete.processes.length) (found : entry.locations[p]? = some l)
    (large : Nat.pow 2 (concrete.widthOf p) ≤ l) : ¬entry.IsFollowed abstract concrete v t := by
  intro followed
  obtain ⟨l', foundToo, place⟩ := followed.location p insideFirst insideSecond
  obtain rfl := Option.some.inj (found.symm.trans foundToo)
  rw [Encoding.locationOf_of_fits fits insideSecond, Except.ok.injEq] at place
  exact Nat.not_lt_of_le large (place ▸ Encoding.number_lt _ _)

end WitnessStep

/-! ## Witnesses that are followed -/

namespace Witness

variable {abstract concrete : System} {fairness : Bool} {u v : Valuation} {last : Nat}
  {witness : List WitnessStep}

/-- The entries of a witness are followed exactly if its states cover those of the system. -/
theorem forall_isFollowed_iff (fits : abstract.Fits) (fitsToo : concrete.Fits)
    (decoded : decode abstract fairness u last = .ok witness) :
    (∀ t ≤ last, ∃ entry, witness[t]? = some entry ∧ entry.IsFollowed abstract concrete v t) ↔
      ∀ t ≤ last,
        System.Covers abstract concrete (u.stateAt abstract t) (v.stateAt concrete t) := by
  refine forall₂_congr fun t within => ?_
  have isFollowed : (WitnessStep.read abstract fairness u t).IsFollowed abstract concrete v t ↔
      System.Covers abstract concrete (u.stateAt abstract t) (v.stateAt concrete t) :=
    WitnessStep.isFollowed_read_iff fitsToo
  rw [← isFollowed]
  constructor
  · rintro ⟨entry, found, followed⟩
    obtain ⟨_, rfl⟩ := (getElem?_eq_some_iff fits decoded).mp found
    exact followed
  · intro followed
    exact ⟨_, (getElem?_eq_some_iff fits decoded).mpr ⟨within, rfl⟩, followed⟩

/-- The formula of a witness is true exactly where the system follows the witness, so nowhere if the
witness shows a location that has no name in the system.  In the system that it is of, a witness is
followed by the valuation that it is read from. -/
theorem formula_iff_isFollowed (fits : abstract.Fits) (fitsToo : concrete.Fits) (fairness : Bool)
    (last : Nat) (u : Valuation) :
    ∃ witness, decode abstract fairness u last = .ok witness ∧ witness.length = last + 1 ∧
      (∃ f, formula concrete witness = .ok f ∧
        (∀ v, f.eval v = true ↔
          ∀ t ≤ last, ∃ entry, witness[t]? = some entry ∧
            entry.IsFollowed abstract concrete v t) ∧
        ∀ (t : Nat) (entry : WitnessStep) (p l : Nat), witness[t]? = some entry →
          entry.locations[p]? = some l → p < concrete.processes.length →
            Nat.pow 2 (concrete.widthOf p) ≤ l → ∀ v, f.eval v = false) ∧
      ∃ g, formula abstract witness = .ok g ∧ g.eval u = true := by
  have decoded := decode_of_fits fits fairness u last
  refine ⟨_, decoded, by rw [List.length_map, List.length_range], ?_, ?_⟩
  · obtain ⟨f, found, meaning⟩ := denotes_formula fits fitsToo decoded
    have followed (v : Valuation) :=
      (meaning v).trans (forall_isFollowed_iff fits fitsToo decoded).symm
    refine ⟨f, found, followed, ?_⟩
    -- What is read back never has more bits than the system gives the location.
    intro t entry p l isEntry isPlace insideSecond large v
    obtain ⟨within, rfl⟩ := (getElem?_eq_some_iff fits decoded).mp isEntry
    have insideFirst := (WitnessStep.getElem?_locations_read.mp isPlace).1
    rw [← Bool.not_eq_true, followed v]
    intro all
    obtain ⟨entry, isEntryToo, isFollowed⟩ := all t within
    obtain rfl := Option.some.inj (isEntry.symm.trans isEntryToo)
    exact WitnessStep.not_isFollowed_of_le fitsToo insideFirst insideSecond isPlace large isFollowed
  · obtain ⟨g, found, meaning⟩ := denotes_formula fits fits decoded
    exact ⟨g, found, (meaning u).mpr fun t _ => System.Covers.refl abstract (u.stateAt abstract t)⟩

/-- A process of three locations and one that stays where it is, beside a system whose only process
has two locations and in which y has another number. -/
theorem formula_iff_isFollowed_of_other_widths :
    let text := "\x7b\"predicates\": \x7b\"x\": 0, \"y\": 1\x7d, \"processes\": [" ++
      "[\x7b\"source\": 0, \"destination\": 2\x7d], " ++
        "[\x7b\"source\": 0, \"destination\": 0\x7d]]\x7d"
    let textToo := "\x7b\"predicates\": \x7b\"y\": 0, \"z\": 1\x7d, \"processes\": " ++
      "[[\x7b\"source\": 0, \"destination\": 1\x7d]]\x7d"
    let abstract : System := ⟨.ofList [("x", 0), ("y", 1)], .empty,
      [⟨0, [⟨0, 2, .always, []⟩]⟩, ⟨1, [⟨0, 0, .always, []⟩]⟩]⟩
    let concrete : System := ⟨.ofList [("y", 0), ("z", 1)], .empty, [⟨0, [⟨0, 1, .always, []⟩]⟩]⟩
    let u : Valuation := fun a => a ∈ [.predicate 0 .unknown 0 false, .predicate 1 .truth 0 false,
      .location 0 0 1 false, .predicate 1 .unknown 1 false]
    ModelFile.load text = .ok abstract ∧ abstract.Fits ∧
      ModelFile.load textToo = .ok concrete ∧ concrete.Fits ∧
        ∃ witness, decode abstract true u 1 = .ok witness ∧ witness.length = 2 ∧
          (∃ f, formula concrete witness = .ok f ∧
            (∀ v, f.eval v = true ↔
              ∀ t ≤ 1, ∃ entry, witness[t]? = some entry ∧
                entry.IsFollowed abstract concrete v t) ∧
            ∀ (t : Nat) (entry : WitnessStep) (p l : Nat), witness[t]? = some entry →
              entry.locations[p]? = some l → p < concrete.processes.length →
                Nat.pow 2 (concrete.widthOf p) ≤ l → ∀ v, f.eval v = false) ∧
          ∃ g, formula abstract witness = .ok g ∧ g.eval u = true := by
  intro text textToo abstract concrete u
  have loaded : ModelFile.load text = .ok abstract := by decide +kernel
  have loadedToo : ModelFile.load textToo = .ok concrete := by decide +kernel
  have fits : abstract.Fits := by
    unfold System.Fits
    decide
  have fitsToo : concrete.Fits := by
    unfold System.Fits
    decide
  exact ⟨loaded, fits, loadedToo, fitsToo, formula_iff_isFollowed fits fitsToo true 1 u⟩

end Witness

end Trivalent
