import Mathlib
import KernelFlow.Library.Rounding
import KernelFlow.Nodes.Median

namespace KernelFlow
namespace Nodes

open OrderStatistic

/-!
# The median in floating point

Numbers are finite binary64 values, every operation rounds its exact result, and
a sum that rounds beyond the largest finite value is infinite, which the output
turns into `null`.  An odd number of readings is not computed with.  An even
number is: the two entries in the middle are added before the sum is halved, so
the answer leaves the range of the readings, and the numbers, exactly if that
sum overflows.
-/

/-- Operations that round, with the largest finite value. -/
def FloatOps.rounded (rounding : Rounding) (largest : ℚ) : FloatOps where
  add := fun left right =>
    if |rounding.round (left + right)| ≤ largest then some (rounding.round (left + right))
    else none
  half := fun value => rounding.round (value / 2)
  cast := rounding.round
  sub := fun left right => rounding.round (left - right)

theorem FloatOps.rounded_add_of_le {rounding : Rounding} {largest left right : ℚ}
    (fits : |rounding.round (left + right)| ≤ largest) :
    (FloatOps.rounded rounding largest).add left right = some (rounding.round (left + right)) :=
  if_pos fits

theorem FloatOps.rounded_add_of_not_le {rounding : Rounding} {largest left right : ℚ}
    (overflows : ¬ |rounding.round (left + right)| ≤ largest) :
    (FloatOps.rounded rounding largest).add left right = none :=
  if_neg overflows

def binary64 : Rounding :=
  .binary 52 (-1074)

/-- `f64::MAX`. -/
def f64Max : ℚ :=
  (2 ^ 53 - 1) * 2 ^ 971

def FloatOps.f64 : FloatOps :=
  .rounded binary64 f64Max

/-- A finite `f64`. -/
structure IsF64 (value : ℚ) : Prop where
  representable : binary64.Representable value
  finite : |value| ≤ f64Max

/-- The sum of two `f64` is finite. -/
def FiniteSum (left right : ℚ) : Prop :=
  |binary64.round (left + right)| ≤ f64Max

theorem isF64_natCast {value : Nat} (small : value < 2 ^ 53) : IsF64 value where
  representable := by
    refine ⟨value, 0, ?_, by norm_num, ?_⟩
    · rw [abs_of_nonneg (Int.natCast_nonneg value)]
      exact_mod_cast small
    · rw [zpow_zero, mul_one]
      rfl
  finite := by
    have below : (value : ℚ) + 1 ≤ 2 ^ 53 := by exact_mod_cast small
    have one : (1 : ℚ) ≤ 2 ^ 971 := one_le_pow₀ (by norm_num)
    have nonnegative : (0 : ℚ) ≤ 2 ^ 53 - 1 := by norm_num
    rw [Nat.abs_cast]
    calc
      (value : ℚ) ≤ 2 ^ 53 - 1 := by linarith only [below]
      _ ≤ f64Max := le_mul_of_one_le_right nonnegative one

theorem isF64_f64Max : IsF64 f64Max where
  representable := by
    refine ⟨2 ^ 53 - 1, 971, ?_, by norm_num, ?_⟩
    · norm_num
    · norm_num [f64Max]
  finite := by
    rw [abs_of_nonneg]
    norm_num [f64Max]

namespace MedianNode

variable {input : NodeInput}

/-- The output is a number from the range of the readings. -/
def InRange (ops : FloatOps) (input : NodeInput) : Prop :=
  ∃ (output : NodeOutput) (number : Number) (smallest greatest : ℚ),
    execute ops input = .ok output ∧ output.value.json = .number number ∧
    IsLeast {reading | reading ∈ readings input} smallest ∧
    IsGreatest {reading | reading ∈ readings input} greatest ∧
    smallest ≤ number.asF64 ∧ number.asF64 ≤ greatest

/-- Between two entries of the ascending order a middle is in range. -/
private theorem inRange_of_between {ops : FloatOps} {nonempty : readings input ≠ []}
    {m low high : ℚ} (answer : middle ops (readings input) nonempty = some m)
    (lowMember : low ∈ readings input) (highMember : high ∈ readings input) (above : low ≤ m)
    (below : m ≤ high) : InRange ops input := by
  rcases exists_isLeast_isGreatest nonempty with ⟨smallest, greatest, least, most⟩
  refine ⟨_, .float m, smallest, greatest, execute_of_nonempty ops nonempty, ?_, least, most, ?_, ?_⟩
  · rw [answer]
    rfl
  · exact (least.2 lowMember).trans above
  · exact below.trans (most.2 highMember)

private theorem mem_readings_of_entry {position : Nat} {entry : ℚ}
    (found : (ascending (readings input))[position]? = some entry) : entry ∈ readings input :=
  mem_ascending.mp (List.mem_of_getElem? found)

section Rounded

variable {rounding : Rounding} {largest low high : ℚ}

/-- A pair in the middle that can be added. -/
private theorem inRange_of_sum_le {nonempty : readings input ≠ []}
    (representable : forall reading, reading ∈ readings input -> rounding.Representable reading)
    (lowMember : low ∈ readings input) (highMember : high ∈ readings input) (ordered : low ≤ high)
    (answer : middle (.rounded rounding largest) (readings input) nonempty =
      ((FloatOps.rounded rounding largest).add low high).map (FloatOps.rounded rounding largest).half)
    (fits : |rounding.round (low + high)| ≤ largest) :
    InRange (.rounded rounding largest) input := by
  have mean : middle (.rounded rounding largest) (readings input) nonempty =
      some (rounding.round (rounding.round (low + high) / 2)) := by
    rw [answer, FloatOps.rounded_add_of_le fits]
    rfl
  apply inRange_of_between mean lowMember highMember
  · exact rounding.le_mean (representable low lowMember) ordered
  · exact rounding.mean_le (representable high highMember) ordered

/-- A pair in the middle that cannot be added: the output is `null`. -/
private theorem not_inRange_of_not_sum_le {nonempty : readings input ≠ []}
    (answer : middle (.rounded rounding largest) (readings input) nonempty =
      ((FloatOps.rounded rounding largest).add low high).map (FloatOps.rounded rounding largest).half)
    (overflows : ¬ |rounding.round (low + high)| ≤ largest) :
    ¬ InRange (.rounded rounding largest) input := by
  intro inRange
  rcases inRange with ⟨output, number, smallest, greatest, executed, isNumber, _⟩
  have infinite : middle (.rounded rounding largest) (readings input) nonempty = none := by
    rw [answer, FloatOps.rounded_add_of_not_le overflows]
    rfl
  rw [execute_of_nonempty _ nonempty, infinite] at executed
  cases executed
  cases isNumber

/-- Rounding operations keep the median in range exactly if they can add the
pair in the middle. -/
theorem inRange_rounded_iff
    (representable : forall reading, reading ∈ readings input -> rounding.Representable reading)
    (nonempty : readings input ≠ []) :
    InRange (.rounded rounding largest) input ↔
      forall low high, MiddlePair (readings input) low high ->
        |rounding.round (low + high)| ≤ largest := by
  rcases middle_cases (.rounded rounding largest) nonempty with
    ⟨half, entry, odd, found, answer⟩ | ⟨half, low, high, even, lowEntry, highEntry, answer⟩
  · have inside := mem_readings_of_entry found
    apply iff_of_true
    · exact inRange_of_between answer inside inside le_rfl le_rfl
    · intro low high pair
      exact absurd pair (not_middlePair_of_odd odd)
  · have pair := middlePair_of_entries even lowEntry highEntry
    constructor
    · intro inRange otherLow otherHigh otherPair
      rcases pair.unique otherPair with ⟨rfl, rfl⟩
      by_contra overflows
      exact not_inRange_of_not_sum_le answer overflows inRange
    · intro all
      exact inRange_of_sum_le representable (mem_readings_of_entry lowEntry)
        (mem_readings_of_entry highEntry) pair.le answer (all low high pair)

end Rounded

/-- Over finite `f64` readings the output of the median is a number in their
range exactly if the sum of the two middle readings, where there are two, is
finite. -/
theorem inRange_f64_iff (input : NodeInput)
    (finite : forall reading, reading ∈ readings input -> IsF64 reading)
    (numeric : numericParents input ≠ []) :
    InRange .f64 input ↔
      forall low high, MiddlePair (readings input) low high -> FiniteSum low high :=
  inRange_rounded_iff (fun reading member => (finite reading member).representable)
    (mt readings_eq_nil_iff.mp numeric)

/-- The median of three prices is one of them. -/
theorem inRange_f64_iff_prices : InRange .f64 prices := by
  have read : readings prices = [((1 : ℕ) : ℚ), ((5 : ℕ) : ℚ), ((3 : ℕ) : ℚ)] := by decide +kernel
  refine (inRange_f64_iff prices ?_ (by decide +kernel)).mpr ?_
  · intro reading member
    rw [read] at member
    simp only [List.mem_cons, List.not_mem_nil, or_false] at member
    rcases member with rfl | rfl | rfl
    · exact isF64_natCast (by norm_num)
    · exact isF64_natCast (by norm_num)
    · exact isF64_natCast (by norm_num)
  · intro low high pair
    have odd : (readings prices).length = 2 * 1 + 1 := by
      rw [read]
      rfl
    exact absurd pair (not_middlePair_of_odd odd)

/-- Two parents with the largest finite value. -/
def enormous : NodeInput where
  workflowId := 0
  nodeId := "m"
  payload := Value.null
  parents := ((∅ : BTreeMap NodeId Value).insert "a" (Value.number (.float f64Max))).insert "b"
    (Value.number (.float f64Max))

/-- Their median is `null`, although both of them are finite. -/
theorem enormous_not_inRange :
    numericParents enormous = ["a", "b"] ∧
    (forall reading, reading ∈ readings enormous -> IsF64 reading) ∧
    ¬ InRange .f64 enormous := by
  have read : readings enormous = [f64Max, f64Max] := by decide +kernel
  have finite : forall reading, reading ∈ readings enormous -> IsF64 reading := by
    intro reading member
    rw [read] at member
    simp only [List.mem_cons, List.not_mem_nil, or_false, or_self] at member
    rw [member]
    exact isF64_f64Max
  refine ⟨by decide +kernel, finite, ?_⟩
  intro inRange
  have pair : MiddlePair (readings enormous) f64Max f64Max := by
    rw [read]
    refine ⟨[], [], List.Perm.refl _, rfl, ?_, le_rfl, ?_⟩
    · exact fun _value absent => absurd absent List.not_mem_nil
    · exact fun _value absent => absurd absent List.not_mem_nil
  have nonempty : readings enormous ≠ [] := by
    rw [read]
    exact List.cons_ne_nil _ _
  have fits : |binary64.round (f64Max + f64Max)| ≤ f64Max := (inRange_rounded_iff
    (fun reading member => (finite reading member).representable) nonempty).mp inRange _ _ pair
  rw [← two_mul, binary64.round_eq _ (binary64.double _ isF64_f64Max.representable),
    abs_of_nonneg (by norm_num [f64Max])] at fits
  exact absurd fits (by norm_num [f64Max])

end MedianNode

end Nodes
end KernelFlow
