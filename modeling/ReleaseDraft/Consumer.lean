/-!
# Consumers

A consumer visits elements one by one and says after each whether it wants more.
-/

namespace ReleaseDraft

/-- The state of a consumer after an element, and whether it goes on. -/
inductive Step (σ : Type) where
  | more (state : σ)
  | done (state : σ)

namespace Step

variable {σ : Type}

/-- The state after a step. -/
def state : Step σ → σ
  | more s => s
  | done s => s

end Step

/-- What a consumer does with an element. -/
abbrev Visit (σ α : Type) := σ → α → Step σ

namespace Visit

variable {σ α : Type}

/-- Visits the elements of a list until the consumer is done. -/
def feed (visit : Visit σ α) : List α → σ → Step σ
  | [], s => .more s
  | a :: rest, s =>
    match visit s a with
    | .more s => feed visit rest s
    | .done s => .done s

/-- Visits elements in another form. -/
def contramap {β : Type} (visit : Visit σ α) (f : β → α) : Visit σ β := fun s b => visit s (f b)

/-- Collects elements until there are `count` of them. -/
def collect (count : Nat) : Visit (List α) α := fun taken a =>
  let taken := taken ++ [a]
  if taken.length < count then .more taken else .done taken

end Visit

end ReleaseDraft
