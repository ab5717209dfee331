import Mathlib

universe u

/-!
# Exponential moving averages

Each sample moves the average a fixed fraction of the way towards itself, so
later samples weigh more than earlier ones.  The average stays between bounds of
its samples.  It is monotone in a stronger sense than pointwise: a sequence is
ahead of another one if every final stretch of it has at least the same sum, and
then so is its average.

The comparison is summation by parts, done as an induction from the latest
sample backwards.  What the final stretch seen so far is ahead by is carried
along, and it is worth at least the weight times itself, since every earlier
sample weighs less than the latest one.
-/

namespace MovingAverage

variable {F : Type u} [Field F] [LinearOrder F] [IsStrictOrderedRing F]

/-- The average of the samples, the latest of which is the last one. -/
def average (weight start : F) (samples : List F) : F :=
  samples.foldl (fun before sample => weight * sample + (1 - weight) * before) start

omit [LinearOrder F] [IsStrictOrderedRing F] in
theorem average_append (weight start : F) (earlier later : List F) :
    average weight start (earlier ++ later) = average weight (average weight start earlier) later :=
  List.foldl_append

omit [LinearOrder F] [IsStrictOrderedRing F] in
theorem average_concat (weight start : F) (samples : List F) (latest : F) :
    average weight start (samples ++ [latest]) =
      weight * latest + (1 - weight) * average weight start samples :=
  average_append weight start samples [latest]

variable {weight start : F}

/-- The average lies in every interval that contains the start and the samples. -/
theorem average_mem_Icc (nonnegative : 0 ≤ weight) (atMostOne : weight ≤ 1) {low high : F}
    (begins : start ∈ Set.Icc low high) {samples : List F}
    (bounded : forall sample, sample ∈ samples -> sample ∈ Set.Icc low high) :
    average weight start samples ∈ Set.Icc low high := by
  induction samples using List.reverseRecOn with
  | nil => exact begins
  | append_singleton earlier latest inductionHypothesis =>
      have before := inductionHypothesis fun sample member =>
        bounded sample (List.mem_append_left _ member)
      have now := bounded latest (List.mem_append_right _ List.mem_cons_self)
      rw [average_concat]
      exact convex_Icc low high now before nonnegative (sub_nonneg.mpr atMostOne)
        (add_sub_cancel weight 1)

/-- The comparison with a head start of the first sequence. -/
private theorem average_le_add_average (nonnegative : 0 ≤ weight) (atMostOne : weight ≤ 1)
    {first second : List F} (sameLength : first.length = second.length) (lead : F)
    (ahead : forall count, (second.rtake count).sum ≤ lead + (first.rtake count).sum) :
    average weight start second ≤ weight * lead + average weight start first := by
  induction first using List.reverseRecOn generalizing second lead with
  | nil =>
      have leading : 0 ≤ lead := by simpa using ahead 0
      rw [List.length_nil] at sameLength
      rw [List.eq_nil_of_length_eq_zero sameLength.symm]
      exact le_add_of_nonneg_left (mul_nonneg nonnegative leading)
  | append_singleton earlier latest inductionHypothesis =>
      rcases List.eq_nil_or_concat second with rfl | ⟨otherEarlier, otherLatest, rfl⟩
      · simp at sameLength
      · rw [List.concat_eq_append] at sameLength ahead ⊢
        have lengths : earlier.length = otherEarlier.length := by simpa using sameLength
        -- the lead over the stretch that ends before the latest samples
        have stillAhead : forall count, (otherEarlier.rtake count).sum ≤
            lead + latest - otherLatest + (earlier.rtake count).sum := by
          intro count
          have longer := ahead (count + 1)
          rw [List.rtake_concat_succ, List.rtake_concat_succ, List.sum_append, List.sum_append,
            List.sum_singleton, List.sum_singleton] at longer
          linarith only [longer]
        have leading : 0 ≤ lead + latest - otherLatest := by simpa using stillAhead 0
        have before := inductionHypothesis lengths _ stillAhead
        have rest : 0 ≤ 1 - weight := sub_nonneg.mpr atMostOne
        have gain : 0 ≤ weight * (weight * (lead + latest - otherLatest)) :=
          mul_nonneg nonnegative (mul_nonneg nonnegative leading)
        rw [average_concat, average_concat]
        calc
          weight * otherLatest + (1 - weight) * average weight start otherEarlier
              ≤ weight * otherLatest + (1 - weight) *
                (weight * (lead + latest - otherLatest) + average weight start earlier) := by
            gcongr
          _ = weight * lead + (weight * latest + (1 - weight) * average weight start earlier) -
                weight * (weight * (lead + latest - otherLatest)) := by ring
          _ ≤ weight * lead + (weight * latest + (1 - weight) * average weight start earlier) :=
            sub_le_self _ gain

/-- A sequence whose every final stretch has at least the sum of the other one's
has at least its average. -/
theorem average_le_average (nonnegative : 0 ≤ weight) (atMostOne : weight ≤ 1)
    {first second : List F} (sameLength : first.length = second.length)
    (ahead : forall count, (second.rtake count).sum ≤ (first.rtake count).sum) :
    average weight start second ≤ average weight start first := by
  have compared : average weight start second ≤ weight * 0 + average weight start first :=
    average_le_add_average nonnegative atMostOne sameLength 0 fun count =>
      (ahead count).trans_eq (zero_add _).symm
  rwa [mul_zero, zero_add] at compared

end MovingAverage
