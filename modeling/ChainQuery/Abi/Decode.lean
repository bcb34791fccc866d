import ChainQuery.Abi.Value
import ChainQuery.Abi.Word
import ChainQuery.Text.Utf8

/-!
# Decoding values

A decoder reads from a frame of bytes at a position and returns the value and the position after its
head. A dynamic value is found by the distance in its head, counted from the start of the frame, and
has a frame of its own there. Padding and unused high bytes are not looked at, frames may not be
nested deeper than sixteen, and a list is refused at once when its frame is too short for the least
that so many members take. A type that holds no data is decoded without a look at the bytes.
-/

namespace ChainQuery.Abi

/-- How many frames may be nested in one another. -/
def frameLimit : Nat := 16

def wordAt? (frame : List UInt8) (pos : Nat) : Option (List UInt8) :=
  let w := (frame.drop pos).take 32
  if w.length = 32 then some w else none

/-- The distance or length that a word holds in its last eight bytes. -/
def offsetAt? (frame : List UInt8) (pos : Nat) : Option Nat :=
  (wordAt? frame pos).map fun w => bigEndian (w.drop 24)

/-- The frame that begins at a distance. It is one deeper, and reaches to the end of the outer one. -/
def innerFrame? (depth : Nat) (frame : List UInt8) (offset : Nat) : Option (List UInt8) :=
  if depth < frameLimit ∧ offset ≤ frame.length then some (frame.drop offset) else none

def referred? (depth : Nat) (frame : List UInt8) (pos : Nat) : Option (List UInt8) :=
  (offsetAt? frame pos).bind (innerFrame? depth frame)

/-- The bytes of a dynamic value: their number in a word, then as many bytes. -/
def bytesAt? (depth : Nat) (frame : List UInt8) (pos : Nat) : Option (List UInt8) := do
  let inner ← referred? depth frame pos
  let length ← offsetAt? inner 0
  let data := (inner.drop 32).take length
  if data.length = length then some data else none

/-- The value of an elementary type in a word. Only the bytes that the type uses are looked at. -/
def ofWord? (t : AbiType) (w : List UInt8) : Option AbiValue :=
  match t with
  | .bool => some (.bool (bigEndian w ≠ 0))
  | .int bits => some (.int (signed (bigEndian w)) bits)
  | .uint bits => some (.uint (bigEndian w) bits)
  | .fixedBytes size => some (.fixedBytes w size)
  | .address => some (.address (w.drop 12))
  | .function => some (.function (w.take 24))
  | _ => none

mutual

/-- The value of a type at a position, and the position after its head. -/
def decodeAt? (depth : Nat) (frame : List UInt8) (pos : Nat) (t : AbiType) :
    Option (AbiValue × Nat) :=
  match t with
  | .bytes => (bytesAt? depth frame pos).map fun data => (.bytes data, pos + 32)
  | .string => (bytesAt? depth frame pos).map fun data => (.string (Text.ofUtf8 data), pos + 32)
  | .array element =>
    match referred? depth frame pos with
    | none => none
    | some inner =>
      match offsetAt? inner 0 with
      | none => none
      | some length =>
        if length = 0 then some (.array [], pos + 32)
        else
          match innerFrame? (depth + 1) inner 32 with
          | none => none
          | some items =>
            if items.length / 32 < element.leastWords * length then none
            else
              match decodeItems? (depth + 2) items 0 element length with
              | some (vs, _) => some (.array vs, pos + 32)
              | none => none
  | .fixedArray element length =>
    if element.isDynamic then
      match referred? depth frame pos with
      | none => none
      | some inner =>
        match decodeItems? (depth + 1) inner 0 element length with
        | some (vs, _) => some (.fixedArray vs, pos + 32)
        | none => none
    else if depth < frameLimit then
      match decodeItems? (depth + 1) frame pos element length with
      | some (vs, next) => some (.fixedArray vs, next)
      | none => none
    else none
  | .tuple fields =>
    if AbiType.isDynamic.anyDynamic fields then
      match referred? depth frame pos with
      | none => none
      | some inner =>
        match decodeFields? (depth + 1) inner 0 fields with
        | some (vs, _) => some (.tuple vs, pos + 32)
        | none => none
    else if depth < frameLimit then
      match decodeFields? (depth + 1) frame pos fields with
      | some (vs, next) => some (.tuple vs, next)
      | none => none
    else none
  | t => (wordAt? frame pos).bind fun w => (ofWord? t w).map fun v => (v, pos + 32)
termination_by (sizeOf t, 0)

def decodeItems? (depth : Nat) (frame : List UInt8) (pos : Nat) (t : AbiType) (count : Nat) :
    Option (List AbiValue × Nat) :=
  match count with
  | 0 => some ([], pos)
  | count + 1 =>
    match decodeAt? depth frame pos t with
    | none => none
    | some (v, next) =>
      (decodeItems? depth frame next t count).map fun (vs, last) => (v :: vs, last)
termination_by (sizeOf t, count + 1)

def decodeFields? (depth : Nat) (frame : List UInt8) (pos : Nat) (ts : List AbiType) :
    Option (List AbiValue × Nat) :=
  match ts with
  | [] => some ([], pos)
  | t :: ts =>
    match decodeAt? depth frame pos t with
    | none => none
    | some (v, next) =>
      (decodeFields? depth frame next ts).map fun (vs, last) => (v :: vs, last)
termination_by (sizeOf ts, 0)

end

/-- Decodes a list of values, the arguments of an event or the answer to a call. There are none when
all the types together hold no data. -/
def decodeAll? (ts : List AbiType) (data : List UInt8) : Option (List AbiValue) :=
  if ts.all AbiType.isHollow then some [] else (decodeFields? 0 data 0 ts).map (·.1)

/-- The value of a type that holds no data. -/
def hollowValue? (t : AbiType) : Option AbiValue :=
  if t.isHollow then
    match t with
    | .array _ => some (.array [])
    | .fixedArray _ _ => some (.fixedArray [])
    | .tuple _ => some (.tuple [])
    | _ => none
  else none

def decode? (t : AbiType) (data : List UInt8) : Option AbiValue :=
  (hollowValue? t).or ((decodeAt? 0 data 0 t).map (·.1))

end ChainQuery.Abi
