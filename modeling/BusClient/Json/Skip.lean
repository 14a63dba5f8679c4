import BusClient.Json.Reader

/-!
# Passing over values

A member that nobody asked for is passed over without being kept. Its value must be well formed,
but it may nest without a bound: the lists and objects that are open are kept on a stack. Neither
the code points nor the pairing of escapes in its strings are looked at.
-/

namespace BusClient.Json

/-- Passes over a string up to its closing quote. -/
def skipString (whole : Bytes) :
    (text : Bytes) → text.length ≤ whole.length → Except Fault (Found Unit whole)
  | [], _ => .error (.before .endInString [])
  | b :: text, h =>
    if b = 0x22 then
      .ok ⟨(), text, h⟩
    else if b = 0x5c then
      match text, h with
      | [], _ => .error (.before .endInString [])
      | c :: rest, h =>
        if (escapeLetter? c).isSome then
          skipString whole rest (Nat.le_trans (Nat.le_add_right _ 2) h)
        else if c = 0x75 then
          match readHex rest with
          | .error fault => .error fault
          | .ok ⟨_, rest', h'⟩ =>
            skipString whole rest'
              (Nat.le_trans (Nat.le_of_lt h') (Nat.le_trans (Nat.le_add_right _ 2) h))
        else .error (.before .invalidEscape rest)
    else if b < 0x20 then
      .error (.before .controlCharacter (b :: text))
    else
      skipString whole text (Nat.le_of_succ_le h)
termination_by text => text.length
decreasing_by
  all_goals simp only [List.length_cons]; omega

/-- Passes over the digits at the front. -/
def skipDigits (text : Bytes) : Maybe Unit text := skipWhile Digit.isByte text

/-- Passes over an exponent, if there is one. -/
def skipExponent : (text : Bytes) → Except Fault (Maybe Unit text)
  | [] => .ok (.nothing ())
  | b :: text =>
    if b = 0x65 || b = 0x45 then
      match readExponentSign text with
      | ⟨_, [], _⟩ => .error (.before .invalidNumber [])
      | ⟨_, c :: text', h⟩ =>
        if Digit.isByte c then .ok (((skipDigits text').beyond h).behind.toMaybe)
        else .error (.before .invalidNumber text')
    else .ok (.nothing ())

/-- Passes over a fraction and an exponent, if there are any. -/
def skipFraction : (text : Bytes) → Except Fault (Maybe Unit text)
  | [] => .ok (.nothing ())
  | b :: text =>
    if b = 0x2e then
      match text with
      | [] => .error (.about .invalidNumber [])
      | c :: more =>
        if Digit.isByte c then
          match skipDigits more with
          | ⟨_, rest, h⟩ =>
            match skipExponent rest with
            | .error fault => .error fault
            | .ok exponent => .ok ((exponent.inLonger h).behind.behind.toMaybe)
        else .error (.about .invalidNumber (c :: more))
    else skipExponent (b :: text)

/-- Passes over a number whose sign has been read. -/
def skipNumber : Reader Unit
  | [] => .error (.before .invalidNumber [])
  | b :: text =>
    let digits : Except Fault (Maybe Unit text) :=
      if b = 0x30 then
        match text with
        | [] => .ok (.nothing ())
        | c :: more =>
          if Digit.isByte c then .error (.about .invalidNumber (c :: more)) else .ok (.nothing ())
      else if Digit.isByte b then .ok (skipDigits text)
      else .error (.before .invalidNumber text)
    match digits with
    | .error fault => .error fault
    | .ok ⟨_, rest, h⟩ =>
      match skipFraction rest with
      | .error fault => .error fault
      | .ok fraction => .ok (fraction.inLonger h).behind

/-- A list or an object that is open. -/
inductive Container
  | list
  | object
  deriving DecidableEq, Repr

namespace Container

/-- The byte that closes a container. -/
def close : Container → UInt8
  | list => 0x5d
  | object => 0x7d

/-- The cause of a text that ends inside a container. -/
def unfinished : Container → Cause
  | list => .endInList
  | object => .endInObject

/-- The cause of something other than a comma or the closing byte after a part. -/
def unseparated : Container → Cause
  | list => .expectedListSeparator
  | object => .expectedObjectSeparator

end Container

/-- Passes over the name and the colon of a member. -/
def skipName : Reader Unit := fun text =>
  match skipBlanks text with
  | ⟨_, [], _⟩ => .error (.about .endInObject [])
  | ⟨_, b :: rest, h⟩ =>
    if b = 0x22 then
      match skipString rest rest (length_le_self rest) with
      | .error fault => .error fault
      | .ok ⟨_, rest', h'⟩ =>
        match readColon rest' with
        | .error fault => .error fault
        | .ok colon => .ok ((colon.beyond h').beyond h)
    else .error (.about .nameNotString (b :: rest))

/-- Passes over what stands in front of a value inside a container: the name, in an object. -/
def skipToValue (container : Container) (text : Bytes) : Except Fault (Maybe Unit text) :=
  match container with
  | .list => .ok (.nothing ())
  | .object =>
    match skipName text with
    | .error fault => .error fault
    | .ok name => .ok name.toMaybe

/-- Passes over the ends of containers after a complete value, up to the comma in front of the
next value. The result is the containers that are still open: none at the end of the whole
value. -/
def skipEnds (whole : Bytes) :
    (opened : List Container) → (text : Bytes) → text.length ≤ whole.length →
      Except Fault (Maybe (List Container) whole)
  | [], text, h => .ok ⟨[], text, h⟩
  | container :: outer, text, h =>
    match skipBlanks text with
    | ⟨_, [], _⟩ => .error (.about container.unfinished [])
    | ⟨_, b :: rest, hr⟩ =>
      if b = 0x2c then
        match skipToValue container rest with
        | .error fault => .error fault
        | .ok ⟨_, rest', h'⟩ =>
          .ok ⟨container :: outer, rest',
            Nat.le_trans h' (Nat.le_of_succ_le (Nat.le_trans hr h))⟩
      else if b = container.close then
        skipEnds whole outer rest (Nat.le_of_succ_le (Nat.le_trans hr h))
      else .error (.about container.unseparated (b :: rest))

/-- What one step over the front of a value leaves to be done. -/
inductive Skipped
  /-- A scalar has been passed over. -/
  | scalar
  /-- A container has been opened. -/
  | opened (container : Container)

/-- Passes over a scalar, or over the bracket that opens a container. -/
def skipFront : Reader Skipped := fun text =>
  match skipBlanks text with
  | ⟨_, [], _⟩ => .error (.about .endInValue [])
  | ⟨_, b :: rest, h⟩ =>
    let word (w : Bytes) : Except Fault (Found Skipped text) :=
      match readWord w rest with
      | .error fault => .error fault
      | .ok found => .ok ((found.map fun _ => .scalar).beyond h)
    if b = 0x6e then word [0x75, 0x6c, 0x6c]
    else if b = 0x74 then word [0x72, 0x75, 0x65]
    else if b = 0x66 then word [0x61, 0x6c, 0x73, 0x65]
    else if b = 0x2d then
      match skipNumber rest with
      | .error fault => .error fault
      | .ok found => .ok ((found.map fun _ => .scalar).beyond h)
    else if Digit.isByte b then
      match skipNumber (b :: rest) with
      | .error fault => .error fault
      | .ok found => .ok ((found.map fun _ => .scalar).inLonger h)
    else if b = 0x22 then
      match skipString rest rest (length_le_self rest) with
      | .error fault => .error fault
      | .ok found => .ok ((found.map fun _ => .scalar).beyond h)
    else if b = 0x5b then .ok ⟨.opened .list, rest, h⟩
    else if b = 0x7b then .ok ⟨.opened .object, rest, h⟩
    else .error (.about .expectedValue (b :: rest))

/-- Passes over what follows an opening bracket: the closing one, or what stands in front of the
first value. The result says whether the container is empty. -/
def skipOpening (container : Container) (text : Bytes) : Except Fault (Maybe Bool text) :=
  match skipBlanks text with
  | ⟨_, [], _⟩ => .error (.about container.unfinished [])
  | ⟨_, b :: rest, h⟩ =>
    if b = container.close then .ok (Found.toMaybe ⟨true, rest, h⟩)
    else
      match skipToValue container (b :: rest) with
      | .error fault => .error fault
      | .ok found => .ok ((found.map fun _ => false).inLonger h)

/-- Passes over values until no container is open. -/
def skipValues (whole : Bytes) (opened : List Container) (text : Bytes)
    (h : text.length ≤ whole.length) : Except Fault (Found Unit whole) :=
  match skipFront text with
  | .error fault => .error fault
  | .ok ⟨.scalar, rest, hr⟩ =>
    match skipEnds rest opened rest (length_le_self rest) with
    | .error fault => .error fault
    | .ok ⟨[], rest', h'⟩ => .ok ⟨(), rest', Nat.lt_of_le_of_lt h' (Nat.lt_of_lt_of_le hr h)⟩
    | .ok ⟨container :: outer, rest', h'⟩ =>
      skipValues whole (container :: outer) rest'
        (Nat.le_trans h' (Nat.le_of_lt (Nat.lt_of_lt_of_le hr h)))
  | .ok ⟨.opened container, rest, hr⟩ =>
    match skipOpening container rest with
    | .error fault => .error fault
    | .ok ⟨false, rest', h'⟩ =>
      skipValues whole (container :: opened) rest'
        (Nat.le_trans h' (Nat.le_of_lt (Nat.lt_of_lt_of_le hr h)))
    | .ok ⟨true, rest', h'⟩ =>
      match skipEnds rest' opened rest' (length_le_self rest') with
      | .error fault => .error fault
      | .ok ⟨[], rest'', h''⟩ =>
        .ok ⟨(), rest'', Nat.lt_of_le_of_lt (Nat.le_trans h'' h') (Nat.lt_of_lt_of_le hr h)⟩
      | .ok ⟨container' :: outer, rest'', h''⟩ =>
        skipValues whole (container' :: outer) rest''
          (Nat.le_trans (Nat.le_trans h'' h') (Nat.le_of_lt (Nat.lt_of_lt_of_le hr h)))
termination_by text.length
decreasing_by
  all_goals omega

/-- Passes over one value. -/
def skipValue : Reader Unit := fun text => skipValues text [] text (length_le_self text)

end BusClient.Json
