/-!
# What a reader leaves

A reader looks at the front of a text and leaves a rest. Its result carries the proof that the
rest is shorter, or at least not longer, than the text, so that a loop over readers ends. A text
is a list of bytes or of characters.
-/

namespace BusClient

/-- What was read at the front of a text, with a rest that is shorter than the text. -/
structure Found {σ : Type} (α : Type) (text : List σ) where
  value : α
  rest : List σ
  shorter : rest.length < text.length

/-- Something optional at the front of a text, with a rest that is not longer than the text. -/
structure Maybe {σ : Type} (α : Type) (text : List σ) where
  value : α
  rest : List σ
  notLonger : rest.length ≤ text.length

variable {σ α β : Type}

/-- Where a reader starts nothing has been read. -/
theorem length_le_self (text : List σ) : text.length ≤ text.length := Nat.le_refl _

namespace Found

/-- One part of the text was read. -/
def single {first : σ} {rest : List σ} (value : α) : Found α (first :: rest) :=
  ⟨value, rest, Nat.lt_succ_self _⟩

/-- The value that was read, changed by a function. -/
def map {text : List σ} (f : α → β) (found : Found α text) : Found β text :=
  ⟨f found.value, found.rest, found.shorter⟩

/-- What was read in a text is also read in a longer one. -/
def inLonger {short long : List σ} (found : Found α short)
    (h : short.length ≤ long.length) : Found α long :=
  ⟨found.value, found.rest, Nat.lt_of_lt_of_le found.shorter h⟩

/-- What was read behind the front of a text is read in the whole text. -/
def beyond {rest text : List σ} (found : Found α rest) (h : rest.length < text.length) :
    Found α text :=
  ⟨found.value, found.rest, Nat.lt_trans found.shorter h⟩

/-- What was read behind the first part of a text is read in the whole text. -/
def behind {first : σ} {rest : List σ} (found : Found α rest) : Found α (first :: rest) :=
  found.beyond (Nat.lt_succ_self _)

/-- What was read is something optional, too. -/
def toMaybe {text : List σ} (found : Found α text) : Maybe α text :=
  ⟨found.value, found.rest, Nat.le_of_lt found.shorter⟩

end Found

namespace Maybe

/-- Nothing was read. -/
def nothing {text : List σ} (value : α) : Maybe α text := ⟨value, text, Nat.le_refl _⟩

/-- The value that was read, changed by a function. -/
def map {text : List σ} (f : α → β) (maybe : Maybe α text) : Maybe β text :=
  ⟨f maybe.value, maybe.rest, maybe.notLonger⟩

/-- What was read in a text is also read in a longer one. -/
def inLonger {short long : List σ} (maybe : Maybe α short)
    (h : short.length ≤ long.length) : Maybe α long :=
  ⟨maybe.value, maybe.rest, Nat.le_trans maybe.notLonger h⟩

/-- What may have been read behind the front of a text is, with the front, something read. -/
def beyond {rest text : List σ} (maybe : Maybe α rest) (h : rest.length < text.length) :
    Found α text :=
  ⟨maybe.value, maybe.rest, Nat.lt_of_le_of_lt maybe.notLonger h⟩

/-- What may have been read behind the first part of a text is, with that, something read. -/
def behind {first : σ} {rest : List σ} (maybe : Maybe α rest) : Found α (first :: rest) :=
  maybe.beyond (Nat.lt_succ_self _)

end Maybe

/-- Passes over what has a property at the front of a text. -/
def skipWhile (p : σ → Bool) (text : List σ) : Maybe Unit text :=
  ⟨(), text.dropWhile p, (List.dropWhile_sublist p).length_le⟩

/-- Takes what has a property at the front of a text. -/
def takeWhile (p : σ → Bool) (text : List σ) : Maybe (List σ) text :=
  ⟨text.takeWhile p, text.dropWhile p, (List.dropWhile_sublist p).length_le⟩

end BusClient
