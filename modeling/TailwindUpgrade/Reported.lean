/-
TailwindUpgrade/Reported.lean

Results that come with notices. No step of an upgrade gives up on input that it cannot carry over:
it goes on with what it can, and says what was lost in notices, in the order in which it found that
out. Each area has its own type of notices; `mapNotices` takes them to a common one.
-/

namespace TailwindUpgrade

/-- A result, and what there is to say about how it came about. -/
structure Reported (ν α : Type) where
  value : α
  notices : List ν
  deriving DecidableEq

namespace Reported

variable {ν μ α β : Type}

/-- A result about which there is nothing to say. -/
def silent (a : α) : Reported ν α := ⟨a, []⟩

/-- Changes the result. -/
def map (f : α → β) (r : Reported ν α) : Reported ν β := ⟨f r.value, r.notices⟩

/-- Changes the notices. -/
def mapNotices (f : ν → μ) (r : Reported ν α) : Reported μ α := ⟨r.value, r.notices.map f⟩

/-- Goes on from a result; notices of the next step come after those so far. -/
def andThen (r : Reported ν α) (next : α → Reported ν β) : Reported ν β :=
  let after := next r.value
  ⟨after.value, r.notices ++ after.notices⟩

instance : Monad (Reported ν) where
  pure := silent
  bind := andThen

/-- Gives notices without a result. -/
def say (notices : List ν) : Reported ν Unit := ⟨(), notices⟩

@[simp] theorem silent_andThen (a : α) (next : α → Reported ν β) :
    (silent a).andThen next = next a := rfl

@[simp] theorem value_bind (r : Reported ν α) (next : α → Reported ν β) :
    (r >>= next).value = (next r.value).value := rfl

@[simp] theorem value_pure (a : α) : (pure a : Reported ν α).value = a := rfl

end Reported

end TailwindUpgrade
