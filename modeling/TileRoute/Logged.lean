/-!
# Values with their events

`Logged` pairs a value with the events met on the way to it, oldest first. Each law below says what
sequencing does to the value and to the events, so that the state part of an operation can be
followed without its events. The last one is about results that may be errors.
-/

namespace TileRoute

/-- A value and the events on the way to it, oldest first. -/
structure Logged (ε α : Type) where
  value : α
  events : List ε

namespace Logged

variable {ε α β : Type}

instance : Monad (Logged ε) where
  pure a := ⟨a, []⟩
  bind x f := ⟨(f x.value).value, x.events ++ (f x.value).events⟩

def emit (e : ε) : Logged ε Unit := ⟨(), [e]⟩

@[simp] theorem value_pure (a : α) : (pure a : Logged ε α).value = a := rfl

@[simp] theorem value_bind (x : Logged ε α) (f : α → Logged ε β) :
    (x >>= f).value = (f x.value).value := rfl

@[simp] theorem events_bind (x : Logged ε α) (f : α → Logged ε β) :
    (x >>= f).events = x.events ++ (f x.value).events := rfl

@[simp] theorem events_map (f : α → β) (x : Logged ε α) : (f <$> x).events = x.events :=
  List.append_nil _

theorem ext_fields {x y : Logged ε α} (hv : x.value = y.value) (he : x.events = y.events) :
    x = y := by
  cases x
  cases y
  simp only at hv he
  rw [hv, he]

end Logged

/-- Of two results in sequence that come to a value, the first is one too. -/
theorem ok_of_bind {ε β γ : Type} {x : Except ε β} {f : β → Except ε γ} {z : γ}
    (h : (x >>= f) = .ok z) : ∃ y, x = .ok y ∧ f y = .ok z := by
  cases x with
  | error e => cases h
  | ok y => exact ⟨y, rfl, h⟩

end TileRoute
