import Mathlib

/-! Versioned values shipped as deltas. A codec compares two values and plays a comparison back; a
sample is a value with its number and, unless it starts a new line of history, the delta from its
predecessor. Along a linked stretch of samples the deltas alone carry a reader from the first value
to the last. -/

namespace LinuxcncCtrl.Lib

universe u v

/-- `make` is silent exactly between equal values, and what it makes can be played back. -/
structure DeltaCodec (E : Type u) (D : Type v) where
  make : E → E → ℕ → Option D
  apply : D → E → E
  make_eq_none_iff : ∀ previous current n, make previous current n = none ↔ previous = current
  apply_make : ∀ {previous current n delta},
    make previous current n = some delta → apply delta previous = current

structure Sample (E : Type u) (D : Type v) where
  sequence : ℕ
  encoded : E
  deltaFromPrevious : Option D
  deriving DecidableEq

variable {E : Type u} {D : Type v}

namespace DeltaCodec

variable (codec : DeltaCodec E D)

def applyAll (deltas : List D) (value : E) : E :=
  deltas.foldl (fun held delta => codec.apply delta held) value

/-- `b` directly follows `a` on one line of history. -/
def Follows (a b : Sample E D) : Prop :=
  b.sequence = a.sequence + 1 ∧
    ∃ delta, b.deltaFromPrevious = some delta ∧ codec.make a.encoded b.encoded b.sequence = some delta

theorem apply_of_follows {codec : DeltaCodec E D} {a b : Sample E D} {delta : D}
    (h : codec.Follows a b) (hd : b.deltaFromPrevious = some delta) :
    codec.apply delta a.encoded = b.encoded := by
  obtain ⟨-, delta', hd', hmake⟩ := h
  rw [hd] at hd'
  rw [Option.some.inj hd']
  exact codec.apply_make hmake

/-- The deltas of a linked stretch lead from its first value to its last. -/
theorem applyAll_linked {codec : DeltaCodec E D} (first : Sample E D) (rest : List (Sample E D))
    (h : (first :: rest).IsChain codec.Follows) :
    codec.applyAll (rest.filterMap (·.deltaFromPrevious)) first.encoded =
      ((first :: rest).getLast (List.cons_ne_nil _ _)).encoded := by
  induction rest generalizing first with
  | nil => rfl
  | cons next rest ih =>
    rw [List.isChain_cons_cons] at h
    obtain ⟨delta, hd, -⟩ := h.1.2
    have hnext := ih next h.2
    simp only [applyAll, List.filterMap_cons, hd, List.foldl_cons] at hnext ⊢
    rw [apply_of_follows h.1 hd, hnext, List.getLast_cons (List.cons_ne_nil _ _)]

end DeltaCodec

end LinuxcncCtrl.Lib
