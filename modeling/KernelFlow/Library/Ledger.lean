import Mathlib
import KernelFlow.Library.Transition

universe u v w

/-!
# Ledgers with limits

Accounts have a limit, and holds are booked against them until they are
settled.  The amounts live in any canonically ordered monoid, so several
resources that have to fit at once are one amount with several coordinates.

The step relation says what a reservation system is for: a hold is booked only
where its amount still fits, an account is closed together with its holds, and
an account gets a limit only if the limit covers what is already held on it.
Whatever follows these steps never exceeds a limit and keeps no hold on a
closed account.
-/

structure Ledger (κ : Type u) (β : Type v) (M : Type w) where
  limit : κ -> Option M
  outstanding : Multiset β

namespace Ledger

variable {κ : Type u} {β : Type v} {M : Type w} [DecidableEq κ]

section Booked

variable [AddCommMonoid M] (account : β -> κ) (amount : β -> M)

/-- The sum of the amounts held on one account. -/
def booked (holds : Multiset β) (key : κ) : M :=
  ((holds.filter fun hold => account hold = key).map amount).sum

theorem booked_cons (hold : β) (holds : Multiset β) (key : κ) :
    booked account amount (hold ::ₘ holds) key =
      (if account hold = key then amount hold else 0) + booked account amount holds key := by
  unfold booked
  by_cases same : account hold = key
  · rw [Multiset.filter_cons_of_pos (p := fun hold => account hold = key) _ same, Multiset.map_cons,
      Multiset.sum_cons, if_pos same]
  · rw [Multiset.filter_cons_of_neg (p := fun hold => account hold = key) _ same, if_neg same,
      zero_add]

theorem booked_add (left right : Multiset β) (key : κ) :
    booked account amount (left + right) key =
      booked account amount left key + booked account amount right key := by
  unfold booked
  rw [Multiset.filter_add, Multiset.map_add, Multiset.sum_add]

/-- Settling a hold takes its amount off its own account. -/
theorem booked_erase [DecidableEq β] {hold : β} {holds : Multiset β} (held : hold ∈ holds)
    (key : κ) :
    booked account amount holds key =
      (if account hold = key then amount hold else 0) +
        booked account amount (holds.erase hold) key := by
  rw [← booked_cons, Multiset.cons_erase held]

/-- Dropping the holds of one account leaves the other accounts as they are. -/
theorem booked_filter_ne (holds : Multiset β) (closed key : κ) :
    booked account amount (holds.filter fun hold => account hold ≠ closed) key =
      if closed = key then 0 else booked account amount holds key := by
  unfold booked
  rw [Multiset.filter_filter]
  by_cases same : closed = key
  · subst same
    rw [if_pos rfl, Multiset.filter_eq_nil.mpr, Multiset.map_zero, Multiset.sum_zero]
    intro hold _held both
    exact both.2 both.1
  · rw [if_neg same]
    congr 2
    apply Multiset.filter_congr
    intro hold _held
    constructor
    · exact fun both => both.1
    · exact fun onKey => ⟨onKey, fun onClosed => same (onClosed.symm.trans onKey)⟩

/-- No hold, no amount. -/
theorem booked_eq_zero {holds : Multiset β} {key : κ}
    (none : forall hold, hold ∈ holds -> account hold ≠ key) :
    booked account amount holds key = 0 := by
  unfold booked
  rw [Multiset.filter_eq_nil.mpr none, Multiset.map_zero, Multiset.sum_zero]

/-- Leaving out empty holds changes no amount. -/
theorem booked_filter_of_eq_zero (kept : β -> Prop) [DecidablePred kept] {holds : Multiset β}
    {key : κ}
    (empty : forall hold, hold ∈ holds -> account hold = key -> ¬ kept hold -> amount hold = 0) :
    booked account amount (holds.filter kept) key = booked account amount holds key := by
  have dropped : booked account amount (holds.filter fun hold => ¬ kept hold) key = 0 := by
    apply Multiset.sum_eq_zero
    intro value member
    rcases Multiset.mem_map.mp member with ⟨hold, onKey, equal⟩
    rcases Multiset.mem_filter.mp onKey with ⟨left, same⟩
    rcases Multiset.mem_filter.mp left with ⟨held, out⟩
    exact equal ▸ empty hold held same out
  calc
    booked account amount (holds.filter kept) key
        = booked account amount (holds.filter kept) key +
            booked account amount (holds.filter fun hold => ¬ kept hold) key := by
      rw [dropped, add_zero]
    _ = booked account amount holds key := by
      rw [← booked_add, Multiset.filter_add_not]

variable [PartialOrder M] [CanonicallyOrderedAdd M]

/-- A part of the holds books no more than all of them. -/
theorem booked_mono {part holds : Multiset β} (contained : part ≤ holds) (key : κ) :
    booked account amount part key ≤ booked account amount holds key := by
  rcases Multiset.le_iff_exists_add.mp contained with ⟨rest, split⟩
  rw [split, booked_add]
  exact le_self_add

/-- A hold books no more than all holds on its account. -/
theorem amount_le_booked {hold : β} {holds : Multiset β} (held : hold ∈ holds) :
    amount hold ≤ booked account amount holds (account hold) := by
  rcases Multiset.exists_cons_of_mem held with ⟨rest, split⟩
  rw [split, booked_cons, if_pos rfl]
  exact le_self_add

end Booked

variable [AddCommMonoid M] [PartialOrder M] {account : β -> κ} {amount : β -> M}

/-- One step of a reservation system. -/
inductive Step [DecidableEq β] (account : β -> κ) (amount : β -> M) (before : Ledger κ β M) :
    Ledger κ β M -> Prop
  | enrol (key : κ) (limit : M) (covers : booked account amount before.outstanding key ≤ limit) :
      Step account amount before
        { before with limit := Function.update before.limit key (some limit) }
  | close (key : κ) :
      Step account amount before
        { limit := Function.update before.limit key none
          outstanding := before.outstanding.filter fun hold => account hold ≠ key }
  | book (hold : β) (limit : M) (enrolled : before.limit (account hold) = some limit)
      (room : amount hold + booked account amount before.outstanding (account hold) ≤ limit) :
      Step account amount before { before with outstanding := hold ::ₘ before.outstanding }
  | settle (hold : β) (held : hold ∈ before.outstanding) :
      Step account amount before { before with outstanding := before.outstanding.erase hold }

/-- No account is overbooked, and no hold is left on a closed account. -/
structure Sound (account : β -> κ) (amount : β -> M) (ledger : Ledger κ β M) : Prop where
  within : forall key limit, ledger.limit key = some limit ->
    booked account amount ledger.outstanding key ≤ limit
  backed : forall hold, hold ∈ ledger.outstanding -> ledger.limit (account hold) ≠ none

namespace Sound

variable {ledger after : Ledger κ β M}

/-- Nothing is booked on an account without a limit. -/
theorem booked_of_closed (sound : ledger.Sound account amount) {key : κ}
    (closed : ledger.limit key = none) : booked account amount ledger.outstanding key = 0 := by
  apply booked_eq_zero
  intro hold held onKey
  exact sound.backed hold held (onKey ▸ closed)

/-- Fewer holds under the same limits. -/
theorem of_le [CanonicallyOrderedAdd M] (sound : ledger.Sound account amount) {part : Multiset β}
    (contained : part ≤ ledger.outstanding) :
    Sound account amount { ledger with outstanding := part } where
  within key limit enrolled :=
    (booked_mono account amount contained key).trans (sound.within key limit enrolled)
  backed hold held := sound.backed hold (Multiset.mem_of_le contained held)

theorem step [DecidableEq β] [CanonicallyOrderedAdd M] (sound : ledger.Sound account amount)
    (taken : Step account amount ledger after) : after.Sound account amount := by
  cases taken with
  | enrol key limit covers =>
      constructor
      · intro other bound enrolled
        dsimp only at enrolled
        by_cases same : other = key
        · subst same
          rw [Function.update_self, Option.some.injEq] at enrolled
          exact enrolled ▸ covers
        · rw [Function.update_of_ne same] at enrolled
          exact sound.within other bound enrolled
      · intro hold held
        dsimp only
        by_cases same : account hold = key
        · rw [same, Function.update_self]
          exact Option.some_ne_none limit
        · rw [Function.update_of_ne same]
          exact sound.backed hold held
  | close key =>
      constructor
      · intro other bound enrolled
        dsimp only at enrolled
        by_cases same : other = key
        · subst same
          rw [Function.update_self] at enrolled
          cases enrolled
        · rw [Function.update_of_ne same] at enrolled
          rw [booked_filter_ne, if_neg (Ne.symm same)]
          exact sound.within other bound enrolled
      · intro hold held
        rcases Multiset.mem_filter.mp held with ⟨before, elsewhere⟩
        dsimp only
        rw [Function.update_of_ne elsewhere]
        exact sound.backed hold before
  | book hold limit enrolled room =>
      constructor
      · intro key bound atKey
        rw [booked_cons]
        by_cases same : account hold = key
        · subst same
          rw [if_pos rfl]
          have equal : limit = bound := Option.some.inj (enrolled.symm.trans atKey)
          exact equal ▸ room
        · rw [if_neg same, zero_add]
          exact sound.within key bound atKey
      · intro other held
        rcases Multiset.mem_cons.mp held with same | before
        · subst same
          rw [enrolled]
          exact Option.some_ne_none limit
        · exact sound.backed other before
  | settle hold held => exact sound.of_le (Multiset.erase_le hold ledger.outstanding)

theorem reaches [DecidableEq β] [CanonicallyOrderedAdd M] (sound : ledger.Sound account amount)
    (run : Transition.Reaches (Step account amount) ledger after) : after.Sound account amount :=
  run.invariant sound fun _before _after soundBefore taken => soundBefore.step taken

end Sound

/-- The empty ledger. -/
theorem sound_empty : Sound account amount { limit := fun _key => none, outstanding := 0 } where
  within _key _limit enrolled := nomatch enrolled
  backed _hold held := absurd held (Multiset.notMem_zero _)

end Ledger
