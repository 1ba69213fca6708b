import Mathlib
import StatusPage.Proofs.Span.Terms

namespace StatusPage

theorem foldlM_error_iff {α σ ε : Type} {step : σ → α → Except ε σ} {xs : List α} {start : σ}
    {reason : ε} :
    xs.foldlM step start = .error reason ↔ ∃ front x behind middle, xs = front ++ x :: behind ∧
      front.foldlM step start = .ok middle ∧ step middle x = .error reason := by
  constructor
  · intro failed
    induction xs generalizing start with
    | nil => cases failed
    | cons x xs ih =>
      rw [List.foldlM_cons] at failed
      cases first : step start x with
      | error other =>
        rw [first] at failed
        cases failed
        exact ⟨[], x, xs, start, rfl, rfl, first⟩
      | ok next =>
        rw [first] at failed
        obtain ⟨front, y, behind, middle, rfl, reached, stuck⟩ := ih failed
        refine ⟨x :: front, y, behind, middle, rfl, ?_, stuck⟩
        rw [List.foldlM_cons, first]
        exact reached
  · intro found
    obtain ⟨front, x, behind, middle, rfl, reached, stuck⟩ := found
    rw [List.foldlM_append, reached]
    show (step middle x >>= _) = _
    rw [stuck]
    rfl

def Span.Fraction.of? (part : Fraction) (scale : ℕ) : Option ℕ :=
  if part.numerator * scale < wordLimit ∧ part.denominator ∣ part.numerator * scale then
    some (part.numerator * scale / part.denominator)
  else none

namespace TimeUnit

def length? (unit : TimeUnit) (value : ℕ) : Option Scale :=
  if value * unit.scale.seconds < wordLimit ∧ value * unit.scale.nanos < wordLimit then
    some ⟨value * unit.scale.seconds, value * unit.scale.nanos⟩
  else none

def partLength? (unit : TimeUnit) (part : Span.Fraction) : Option Scale := do
  let scale ← unit.fractionScale?
  return ⟨← part.of? scale.seconds, ← part.of? scale.nanos⟩

def lengths (unit : TimeUnit) (value : ℕ) (part : Option Span.Fraction) : List (Option Scale) :=
  unit.length? value :: part.toList.map unit.partLength?

theorem mem_names_of_ofName? {unit : TimeUnit} {name : String} (found : ofName? name = some unit) :
    name ∈ unit.names := by
  simpa using List.find?_some found

theorem nanoseconds_fractionScale {unit : TimeUnit} {scale : Scale}
    (split : unit.fractionScale? = some scale) : scale.nanoseconds = unit.scale.nanoseconds := by
  cases unit <;> cases split <;> rfl

end TimeUnit

namespace Span

def addLength (total : Span) : Option Scale → Except (Failure ReadError) Span
  | none => .error (.refused .numberOverflow)
  | some length => total.add length.seconds length.nanos

def addLengths (total : Span) (lengths : List (Option Scale)) : Except (Failure ReadError) Span :=
  lengths.foldlM addLength total

theorem addLengths_cons (total : Span) (length : Option Scale) (lengths : List (Option Scale)) :
    total.addLengths (length :: lengths) = total.addLength length >>= (·.addLengths lengths) :=
  List.foldlM_cons

theorem addLengths_append (total : Span) (lengths more : List (Option Scale)) :
    total.addLengths (lengths ++ more) = total.addLengths lengths >>= (·.addLengths more) :=
  List.foldlM_append

theorem checked_eq (n : ℕ) :
    checked n = if n < wordLimit then .ok n else .error (.refused .numberOverflow) := rfl

theorem addWhole_eq (total : Span) (unit : TimeUnit) (value : ℕ) :
    total.addWhole unit value = total.addLength (unit.length? value) := by
  unfold addWhole TimeUnit.length?
  by_cases seconds : value * unit.scale.seconds < wordLimit
  · by_cases nanos : value * unit.scale.nanos < wordLimit
    · rw [if_pos ⟨seconds, nanos⟩, checked_of_lt seconds, checked_of_lt nanos]
      rfl
    · rw [if_neg (fun both => nanos both.2), checked_of_lt seconds, checked_eq _, if_neg nanos]
      rfl
  · rw [if_neg (fun both => seconds both.1), checked_eq, if_neg seconds]
    rfl

theorem Fraction.of_eq (part : Fraction) (scale : ℕ) :
    part.of scale = (part.of? scale).elim (.error (.refused .numberOverflow)) .ok := by
  unfold Fraction.of Fraction.of?
  by_cases word : part.numerator * scale < wordLimit
  · simp only [checked_of_lt word, word, true_and, bind, Except.bind, Nat.dvd_iff_mod_eq_zero]
    split <;> rfl
  · rw [checked_eq, if_neg word, if_neg (fun both => word both.1)]
    rfl

theorem addFraction_eq (total : Span) (unit : TimeUnit) (part : Fraction) :
    total.addFraction unit part = total.addLength (unit.partLength? part) := by
  unfold addFraction TimeUnit.partLength?
  cases unit.fractionScale? with
  | none => rfl
  | some scale =>
    dsimp only
    rw [part.of_eq, part.of_eq]
    cases seconds : part.of? scale.seconds with
    | none => simp [seconds, addLength, bind, Except.bind]
    | some whole =>
      cases nanos : part.of? scale.nanos with
      | none => simp [seconds, nanos, addLength, bind, Except.bind]
      | some rest => simp [seconds, nanos, addLength, bind, Except.bind]

/-- A term is added as its lengths are: the whole number of its unit, then the part of one. -/
theorem addTerm_eq (total : Span) {unit : TimeUnit} {name : List Char}
    (named : String.ofList name ∈ unit.names) (value : ℕ) (part : Option Fraction) :
    total.addTerm value part name = total.addLengths (unit.lengths value part) := by
  have known := TimeUnit.ofName?_of_mem named
  rw [TimeUnit.lengths, addLengths_cons, addTerm, known]
  dsimp only
  rw [addWhole_eq]
  cases part with
  | none => rfl
  | some part =>
    congr 1
    funext total
    dsimp only
    rw [addFraction_eq, Option.toList_some, List.map_singleton, addLengths_cons]
    exact (bind_pure _).symm

theorem add_ok_iff {total next : Span} {seconds nanos : ℕ} :
    total.add seconds nanos = .ok next ↔ total.subsecond + nanos < wordLimit ∧
      next.nanoseconds = total.nanoseconds + seconds * nanosPerSecond + nanos := by
  unfold add
  have bound := next.fits
  by_cases room : total.subsecond + nanos < wordLimit
  · rw [if_neg (Nat.not_le.mpr room)]
    by_cases fits : total.nanoseconds + seconds * nanosPerSecond + nanos <
        wordLimit * nanosPerSecond
    · rw [dif_pos fits]
      obtain ⟨nanoseconds, small⟩ := next
      simp [room, eq_comm]
    · rw [dif_neg fits]
      constructor
      · intro same
        split at same <;> cases same
      · intro both
        obtain ⟨-, same⟩ := both
        omega
  · rw [if_pos (Nat.not_lt.mp room)]
    simp [room]

theorem add_abandoned_iff {total : Span} {seconds nanos : ℕ} :
    total.add seconds nanos = .error .abandoned ↔
      total.subsecond + nanos = nanosPerSecond ∧
        total.nanoseconds + seconds * nanosPerSecond + nanos = wordLimit * nanosPerSecond := by
  have parts : total.nanoseconds = total.seconds * nanosPerSecond + total.subsecond :=
    (Nat.div_add_mod' _ _).symm
  have last : total.subsecond + nanos = nanosPerSecond →
      (total.seconds + seconds + 1 = wordLimit ↔
        total.nanoseconds + seconds * nanosPerSecond + nanos = wordLimit * nanosPerSecond) := by
    intro full
    simp only [nanosPerSecond] at parts full ⊢
    omega
  have small : nanosPerSecond < wordLimit := by decide
  unfold add
  by_cases full : total.subsecond + nanos = nanosPerSecond
  · rw [if_neg (by omega)]
    by_cases beyond :
        total.nanoseconds + seconds * nanosPerSecond + nanos = wordLimit * nanosPerSecond
    · rw [dif_neg (by omega), if_pos ⟨full, (last full).mpr beyond⟩]
      simp [full, beyond]
    · have other : ¬ total.seconds + seconds + 1 = wordLimit := mt (last full).mp beyond
      simp only [full, other, beyond, and_false, iff_false]
      split <;> simp
  · simp only [full, false_and, iff_false, if_false]
    split
    · simp
    · split <;> simp

theorem addLength_ok_iff {total next : Span} {length : Option Scale} :
    total.addLength length = .ok next ↔ ∃ known, length = some known ∧
      total.subsecond + known.nanos < wordLimit ∧
      next.nanoseconds = total.nanoseconds + known.nanoseconds := by
  cases length with
  | none => simp [addLength]
  | some known => simp [addLength, add_ok_iff, Scale.nanoseconds, Nat.add_assoc]

theorem addLength_abandoned_iff {total : Span} {length : Option Scale} :
    total.addLength length = .error .abandoned ↔ ∃ known, length = some known ∧
      total.subsecond + known.nanos = nanosPerSecond ∧
      total.nanoseconds + known.nanoseconds = wordLimit * nanosPerSecond := by
  cases length with
  | none => simp [addLength]
  | some known => simp [addLength, add_abandoned_iff, Scale.nanoseconds, Nat.add_assoc]

theorem addLengths_ok_of_append {total next : Span} {lengths more : List (Option Scale)}
    (added : total.addLengths (lengths ++ more) = .ok next) :
    ∃ sum, total.addLengths lengths = .ok sum ∧ sum.addLengths more = .ok next := by
  rw [addLengths_append] at added
  exact exists_of_bind_ok added

theorem addLengths_singleton (total : Span) (length : Option Scale) :
    total.addLengths [length] = total.addLength length := by
  rw [addLengths_cons]
  exact bind_pure _

/-- At each length the nanoseconds beyond the last whole second and those that come with it fit one
    machine word. -/
def Roomy (lengths : List Scale) : Prop :=
  ∀ front length, front ++ [length] <+: lengths →
    (front.map Scale.nanoseconds).sum % nanosPerSecond + length.nanos < wordLimit

theorem roomy_concat_iff {lengths : List Scale} {last : Scale} :
    Roomy (lengths ++ [last]) ↔ Roomy lengths ∧
      (lengths.map Scale.nanoseconds).sum % nanosPerSecond + last.nanos < wordLimit := by
  unfold Roomy
  constructor
  · intro roomy
    exact ⟨fun front length before => roomy front length (before.trans (List.prefix_append _ _)),
      roomy lengths last (List.prefix_rfl)⟩
  · intro both front length before
    obtain ⟨roomy, room⟩ := both
    rcases List.prefix_concat_iff.mp before with whole | before
    · obtain ⟨rfl, same⟩ := List.append_inj' whole rfl
      obtain rfl := List.singleton_inj.mp same
      exact room
    · exact roomy front length before

theorem addLengths_nil (total : Span) : total.addLengths [] = .ok total := rfl

theorem roomy_nil : Roomy [] := by
  intro front length before
  simp at before

/-- Lengths can be added up when there is room for each of them, and give their exact sum. -/
theorem addLengths_ok_iff {lengths : List (Option Scale)} {total : Span} :
    zero.addLengths lengths = .ok total ↔ ∃ known : List Scale, lengths = known.map some ∧
      Roomy known ∧ total.nanoseconds = (known.map Scale.nanoseconds).sum := by
  -- By induction from the end: what is added last comes on top of an exact sum.
  induction lengths using List.reverseRecOn generalizing total with
  | nil =>
    rw [addLengths_nil]
    constructor
    · intro same
      cases same
      exact ⟨[], rfl, roomy_nil, rfl⟩
    · intro found
      obtain ⟨known, none, -, exactly⟩ := found
      obtain rfl := List.map_eq_nil_iff.mp none.symm
      exact congrArg Except.ok (ext_nanoseconds exactly.symm)
  | append_singleton lengths length ih =>
    constructor
    · intro added
      obtain ⟨sum, before, after⟩ := addLengths_ok_of_append added
      obtain ⟨known, rfl, roomy, exactly⟩ := ih.mp before
      rw [addLengths_singleton] at after
      obtain ⟨last, rfl, room, next⟩ := addLength_ok_iff.mp after
      rw [subsecond, exactly] at room
      refine ⟨known ++ [last], by simp, roomy_concat_iff.mpr ⟨roomy, room⟩, ?_⟩
      rw [next, exactly, List.map_append, List.sum_append, List.map_singleton, List.sum_singleton]
    · intro found
      obtain ⟨known, same, roomy, exactly⟩ := found
      obtain rfl | ⟨front, last, rfl⟩ := List.eq_nil_or_concat' known
      · simp at same
      · rw [List.map_append, List.map_singleton] at same
        obtain ⟨rfl, ends⟩ := List.append_inj' same rfl
        obtain rfl := List.singleton_inj.mp ends
        obtain ⟨before, room⟩ := roomy_concat_iff.mp roomy
        rw [List.map_append, List.sum_append, List.map_singleton, List.sum_singleton] at exactly
        let sum : Span := ⟨(front.map Scale.nanoseconds).sum,
          Nat.lt_of_le_of_lt (exactly ▸ Nat.le_add_right _ _) total.fits⟩
        have added : zero.addLengths (front.map some) = .ok sum :=
          ih.mpr ⟨front, rfl, before, rfl⟩
        rw [addLengths_append, added]
        exact (addLengths_singleton sum (some last)).trans
          (addLength_ok_iff.mpr ⟨last, rfl, room, exactly⟩)

theorem addLengths_error_iff {total : Span} {lengths : List (Option Scale)}
    {failure : Failure ReadError} :
    total.addLengths lengths = .error failure ↔ ∃ before length after sum,
      lengths = before ++ length :: after ∧ total.addLengths before = .ok sum ∧
      sum.addLength length = .error failure :=
  foldlM_error_iff

/-- One of the lengths fills up the last second that fits, to the nanosecond: the sum comes to
    exactly `2 ^ 64` seconds, and the nanoseconds before it and in it to exactly one of them. -/
def Overruns (lengths : List (Option Scale)) : Prop :=
  ∃ (before : List Scale) (last : Scale) (after : List (Option Scale)),
    lengths = before.map some ++ some last :: after ∧ Roomy before ∧
    (before.map Scale.nanoseconds).sum % nanosPerSecond + last.nanos = nanosPerSecond ∧
    (before.map Scale.nanoseconds).sum + last.nanoseconds = wordLimit * nanosPerSecond

theorem addLengths_abandoned_iff {lengths : List (Option Scale)} :
    zero.addLengths lengths = .error .abandoned ↔ Overruns lengths := by
  rw [addLengths_error_iff]
  constructor
  · intro found
    obtain ⟨before, length, after, sum, rfl, added, abandoned⟩ := found
    obtain ⟨known, rfl, roomy, exactly⟩ := addLengths_ok_iff.mp added
    obtain ⟨last, rfl, full, whole⟩ := addLength_abandoned_iff.mp abandoned
    rw [subsecond, exactly] at full
    rw [exactly] at whole
    exact ⟨known, last, after, rfl, roomy, full, whole⟩
  · intro overruns
    obtain ⟨known, last, after, rfl, roomy, full, whole⟩ := overruns
    have some : 0 < last.nanoseconds := by
      have below : (known.map Scale.nanoseconds).sum % nanosPerSecond < nanosPerSecond :=
        Nat.mod_lt _ (by decide)
      unfold Scale.nanoseconds
      omega
    let sum : Span := ⟨(known.map Scale.nanoseconds).sum, by omega⟩
    have added : zero.addLengths (known.map Option.some) = .ok sum :=
      addLengths_ok_iff.mpr ⟨known, rfl, roomy, rfl⟩
    exact ⟨_, _, after, sum, rfl, added, addLength_abandoned_iff.mpr ⟨last, rfl, full, whole⟩⟩

end Span

end StatusPage
