import Mathlib
import StorageAtlas.Report.Size

/-!
The two loops that write a size, turn by turn. The first divides the size until
a unit fits or there is no further unit. The second multiplies what is left until
it has three figures, and counts the decimals on its way. A loop that never ends
has no outcome. The first always ends, and with at least one, from which the second
ends as well. So every size is written, with the text of the size as the only
outcome.
-/

namespace StorageAtlas

/-- The outcome of a loop: its turns are given by `next`, and it ends where there is none. -/
inductive Loops {α : Type} (next : α → Option α) : α → α → Prop where
  | stop {x : α} (h : next x = none) : Loops next x x
  | turn {x y z : α} (h : next x = some y) (rest : Loops next y z) : Loops next x z

namespace Loops

variable {α : Type} {next : α → Option α} {x y z : α}

theorem unique (hy : Loops next x y) (hz : Loops next x z) : y = z := by
  induction hy with
  | stop h =>
    cases hz with
    | stop _ => rfl
    | turn h' _ =>
      rw [h] at h'
      cases h'
  | turn h _ ih =>
    cases hz with
    | stop h' =>
      rw [h'] at h
      cases h
    | turn h' rest =>
      rw [h, Option.some.injEq] at h'
      exact ih (h' ▸ rest)

/-- What each turn preserves holds in the end, when no turn is left. -/
theorem invariant {p : α → Prop} (hturn : ∀ x y, p x → next x = some y → p y)
    (h : Loops next x z) (hx : p x) : p z ∧ next z = none := by
  induction h with
  | stop h => exact ⟨hx, h⟩
  | turn h _ ih => exact ih (hturn _ _ hx h)

end Loops

namespace SizeScale

/-- What the dividing loop works on. -/
structure Division where
  left : Nat
  remainder : Nat
  times : Nat

/-- A turn of the loop that divides. -/
def divide (scale : SizeScale) (x : Division) : Option Division :=
  if scale.divisor ≤ x.left ∧ x.times < scale.units.length - 1 then
    some ⟨x.left / scale.divisor, x.left % scale.divisor, x.times + 1⟩
  else none

/-- A turn of the loop that multiplies and counts. -/
def widen (x : Nat × Nat) : Option (Nat × Nat) :=
  if x.1 * 10 < 1000 then some (x.1 * 10, x.2 + 1) else none

/-- The text with which the writing of a size ends. -/
inductive Written (scale : SizeScale) (size : Int) : Text → Prop where
  | whole (h : size < scale.divisor) :
    Written scale size (Text.signed size ++ scale.units.headD [])
  | divided {x : Division} {widened digits : Nat} (h : scale.divisor ≤ size)
    (hdivide : Loops scale.divide ⟨size.toNat, 0, 0⟩ x)
    (hwiden : Loops widen (x.left, 0) (widened, digits)) :
    Written scale size (Text.decimal x.left ++ fraction scale.divisor x.remainder digits ++
      scale.units.getD x.times [])

/-! ## The dividing loop -/

variable {scale : SizeScale}

theorem divide_eq_some_iff {x y : Division} : scale.divide x = some y ↔
    (scale.divisor ≤ x.left ∧ x.times < scale.units.length - 1) ∧
      y = ⟨x.left / scale.divisor, x.left % scale.divisor, x.times + 1⟩ := by
  unfold divide
  split
  · rename_i h
    simp [h, eq_comm]
  · rename_i h
    simp [h]

theorem divide_eq_none_iff {x : Division} : scale.divide x = none ↔
    x.left < scale.divisor ∨ scale.units.length - 1 ≤ x.times := by
  unfold divide
  split
  · rename_i h
    simp only [reduceCtorEq, false_iff]
    omega
  · rename_i h
    simp only [true_iff]
    omega

/-- As many turns as there are units left are enough for the loop to end. -/
theorem loops_reduce {left n remainder times n' remainder' times' : Nat}
    (hleft : times + left = scale.units.length - 1)
    (h : reduce scale.divisor left n remainder times = (n', remainder', times')) :
    Loops scale.divide ⟨n, remainder, times⟩ ⟨n', remainder', times'⟩ := by
  induction left generalizing n remainder times with
  | zero =>
    cases h
    apply Loops.stop
    rw [divide_eq_none_iff]
    exact .inr (Nat.le_of_eq hleft.symm)
  | succ left ih =>
    rw [reduce] at h
    split at h
    · rename_i hlt
      cases h
      apply Loops.stop
      rw [divide_eq_none_iff]
      exact .inl hlt
    · rename_i hle
      apply Loops.turn _ (ih _ h)
      · rw [divide_eq_some_iff]
        refine ⟨⟨?_, ?_⟩, rfl⟩
        · exact Nat.le_of_not_lt hle
        · show times < scale.units.length - 1
          omega
      · omega

/-- Where the division of a size has got to: the parts belong to the power of the divisor that was
reached, and this power does not exceed the size. -/
structure Division.IsOf (scale : SizeScale) (size : Nat) (x : Division) : Prop where
  left : x.left = size / scale.divisor ^ x.times
  remainder : ∀ n, x.times = n + 1 → x.remainder = size / scale.divisor ^ n % scale.divisor
  le : scale.divisor ^ x.times ≤ size
  times_le : x.times ≤ scale.units.length - 1

theorem Division.IsOf.start {size : Nat} (h : 0 < size) : IsOf scale size ⟨size, 0, 0⟩ where
  left := by simp
  remainder := by simp
  le := by
    rw [Nat.pow_zero]
    exact h
  times_le := Nat.zero_le _

theorem Division.IsOf.turn (hdivisor : 0 < scale.divisor) {size : Nat} {x y : Division}
    (hx : x.IsOf scale size) (h : scale.divide x = some y) : y.IsOf scale size := by
  obtain ⟨⟨hle, htimes⟩, rfl⟩ := divide_eq_some_iff.1 h
  constructor
  case left =>
    show x.left / scale.divisor = size / scale.divisor ^ (x.times + 1)
    rw [hx.left, Nat.div_div_eq_div_mul, Nat.pow_succ]
  case remainder =>
    rintro n hn
    obtain rfl : x.times = n := Nat.succ.inj hn
    rw [← hx.left]
  case le =>
    -- one more division leaves something, so one more factor fits
    show scale.divisor ^ (x.times + 1) ≤ size
    rw [hx.left, Nat.le_div_iff_mul_le (Nat.pow_pos hdivisor)] at hle
    rw [Nat.pow_succ, Nat.mul_comm]
    exact hle
  case times_le => exact htimes

theorem Division.IsOf.left_pos (hdivisor : 0 < scale.divisor) {size : Nat} {x : Division}
    (hx : x.IsOf scale size) : 0 < x.left := by
  rw [hx.left]
  exact Nat.div_pos hx.le (Nat.pow_pos hdivisor)

/-- Where the division of a size ends: at the last unit, or with less than the divisor. -/
theorem exists_reduce (hdivisor : 0 < scale.divisor) {size : Nat} (h : 0 < size) :
    ∃ x : Division, Loops scale.divide ⟨size, 0, 0⟩ x ∧ x.IsOf scale size ∧
      (x.left < scale.divisor ∨ x.times = scale.units.length - 1) ∧
      reduce scale.divisor (scale.units.length - 1) size 0 0 = (x.left, x.remainder, x.times) := by
  obtain ⟨n, remainder, times, hreduce⟩ : ∃ n remainder times,
      reduce scale.divisor (scale.units.length - 1) size 0 0 = (n, remainder, times) :=
    ⟨_, _, _, rfl⟩
  have hloops := loops_reduce (Nat.zero_add _) hreduce
  obtain ⟨hof, hend⟩ := hloops.invariant (fun _ _ hx => hx.turn hdivisor) (Division.IsOf.start h)
  rw [divide_eq_none_iff] at hend
  exact ⟨_, hloops, hof, hend.imp_right (Nat.le_antisymm hof.times_le), hreduce⟩

/-! ## The counting loop -/

theorem loops_widen {n : Nat} (h : 0 < n) : ∃ widened, Loops widen (n, 0) (widened, decimals n) := by
  unfold decimals
  split
  · refine ⟨n * 10 * 10, .turn (y := (n * 10, 1)) ?_ (.turn (y := (n * 10 * 10, 2)) ?_ (.stop ?_))⟩
    · exact if_pos (by omega)
    · exact if_pos (by omega)
    · exact if_neg (by omega)
  · split
    · refine ⟨n * 10, .turn (y := (n * 10, 1)) ?_ (.stop ?_)⟩
      · exact if_pos (by omega)
      · exact if_neg (by omega)
    · exact ⟨n, .stop (if_neg (by omega))⟩

/-! ## The outcome -/

/-- A size has one outcome, its text. -/
theorem written_iff (hdivisor : 0 < scale.divisor) (size : Int) (t : Text) :
    scale.Written size t ↔ t = scale.text size := by
  by_cases hsize : size < scale.divisor
  · rw [text, if_pos hsize]
    constructor
    · rintro (_ | ⟨hle, _, _⟩)
      · rfl
      · omega
    · rintro rfl
      exact .whole hsize
  · have hle : (scale.divisor : Int) ≤ size := by omega
    obtain ⟨x, hdivide, hof, -, hreduce⟩ := exists_reduce hdivisor (show 0 < size.toNat by omega)
    obtain ⟨widened, hwiden⟩ := loops_widen (hof.left_pos hdivisor)
    rw [text, if_neg hsize, hreduce]
    constructor
    · rintro (hlt | ⟨-, hdivide', hwiden'⟩)
      · omega
      · obtain rfl := hdivide'.unique hdivide
        obtain ⟨rfl, rfl⟩ := Prod.mk.inj (hwiden'.unique hwiden)
        rfl
    · rintro rfl
      exact .divided hle hdivide hwiden

end SizeScale
end StorageAtlas
