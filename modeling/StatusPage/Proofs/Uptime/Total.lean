import Mathlib
import StatusPage.Uptime

namespace StatusPage.Uptime

structure Normal (u : Uptime) : Prop where
  hours : u.hours < 24
  minutes : u.minutes < 60
  seconds : u.seconds < 60

/-- An uptime whose hours and minutes, counted in seconds, are words. -/
structure Countable (u : Uptime) : Prop where
  hours : u.hours * 3600 < wordLimit
  minutes : u.minutes * 60 < wordLimit

def exactTotal (u : Uptime) : ℕ :=
  u.days * 86400 + u.hours * 3600 + u.minutes * 60 + u.seconds

theorem saturatingAdd_min (m n : ℕ) :
    saturatingAdd (min maxSeconds m) n = min maxSeconds (m + n) := by
  rw [saturatingAdd]
  omega

theorem foldl_saturatingAdd (first : ℕ) (counts : List ℕ) :
    counts.foldl saturatingAdd (min maxSeconds first) = min maxSeconds (first + counts.sum) := by
  induction counts generalizing first with
  | nil => rfl
  | cons count counts ih =>
    rw [List.foldl_cons, saturatingAdd_min, ih, List.sum_cons, Nat.add_assoc]

theorem wrappingMul_of_word {m n : ℕ} (word : m * n < wordLimit) : wrappingMul m n = m * n :=
  Nat.mod_eq_of_lt word

theorem Countable.total_eq_min {u : Uptime} (countable : u.Countable) :
    u.total = min maxSeconds u.exactTotal := by
  have sum : [u.hours * 3600, u.minutes * 60, u.seconds].sum =
      u.hours * 3600 + u.minutes * 60 + u.seconds := by
    simp [Nat.add_assoc]
  rw [total, wrappingMul_of_word countable.hours, wrappingMul_of_word countable.minutes,
    foldl_saturatingAdd, sum, exactTotal]
  simp only [Nat.add_assoc]

theorem Normal.countable {u : Uptime} (normal : u.Normal) : u.Countable where
  hours := lt_of_lt_of_le (Nat.mul_lt_mul_of_pos_right normal.hours (by decide)) (by decide)
  minutes := lt_of_lt_of_le (Nat.mul_lt_mul_of_pos_right normal.minutes (by decide)) (by decide)

theorem min_maxSeconds_of_word {count : ℕ} (word : count < wordLimit) :
    min maxSeconds count = count :=
  Nat.min_eq_right (Nat.le_sub_one_of_lt word)

theorem normal_ofSeconds (total : ℕ) : (ofSeconds total).Normal where
  hours := Nat.mod_lt _ (by decide)
  minutes := Nat.mod_lt _ (by decide)
  seconds := Nat.mod_lt _ (by decide)

theorem exactTotal_ofSeconds (total : ℕ) : (ofSeconds total).exactTotal = total := by
  simp only [exactTotal, ofSeconds]
  omega

theorem Normal.ofSeconds_exactTotal {u : Uptime} (normal : u.Normal) :
    ofSeconds u.exactTotal = u := by
  obtain ⟨days, hours, minutes, seconds⟩ := u
  obtain ⟨day, hour, minute⟩ := normal
  dsimp only at day hour minute
  simp only [exactTotal, ofSeconds, mk.injEq]
  omega

/-- Splitting a second count and adding it up again undo each other, and a sum that is no word
    comes out as the largest one. -/
theorem ofSeconds_total_inverse :
    (∀ seconds < wordLimit,
      (ofSeconds seconds).Normal ∧ (ofSeconds seconds).total = seconds) ∧
    (∀ u : Uptime, u.Normal → u.exactTotal < wordLimit → ofSeconds u.total = u) ∧
    (∀ u : Uptime, u.Countable → u.total = min maxSeconds u.exactTotal) := by
  refine ⟨?_, ?_, fun u countable => countable.total_eq_min⟩
  · intro seconds word
    have normal := normal_ofSeconds seconds
    refine ⟨normal, ?_⟩
    rw [normal.countable.total_eq_min, exactTotal_ofSeconds, min_maxSeconds_of_word word]
  · intro u normal word
    rw [normal.countable.total_eq_min, min_maxSeconds_of_word word, normal.ofSeconds_exactTotal]

theorem ofSeconds_total_inverse_maxSeconds :
    (ofSeconds maxSeconds).total = maxSeconds ∧
    ofSeconds (total ⟨213503982334601, 7, 0, 15⟩) = ⟨213503982334601, 7, 0, 15⟩ ∧
    total ⟨213503982334601, 8, 0, 15⟩ = maxSeconds :=
  ⟨(ofSeconds_total_inverse.1 maxSeconds (by decide)).2,
    ofSeconds_total_inverse.2.1 _ ⟨by decide, by decide, by decide⟩ (by decide),
    (ofSeconds_total_inverse.2.2 _ ⟨by decide, by decide⟩).trans (by decide)⟩

/-- Hours that are no word when they are counted in seconds. -/
example : total ⟨0, 5124095576030432, 0, 0⟩ = 3584 := by decide

end StatusPage.Uptime
