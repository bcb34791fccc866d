import ChainQuery.Text.CaseTable

/-!
# Lower case

The full lower case of a text. Every character maps by itself, with two exceptions: the capital I
with dot becomes two characters, and a capital sigma at the end of a word becomes the final form.
-/

namespace ChainQuery.Text

def inRanges (ranges : List (Nat × Nat)) (n : Nat) : Bool :=
  ranges.any fun r => r.1 ≤ n && n ≤ r.2

/-- The small letter of a letter, by the runs of the table beyond the first 128 characters. -/
def lowerChar (c : Char) : Char :=
  if c.toNat < 0x80 then c.toLower
  else
    match caseRuns.find? fun r => r.first ≤ c.toNat && c.toNat ≤ r.last with
    | some r =>
      if (c.toNat - r.first) % r.step = 0 then Char.ofNat (Int.ofNat c.toNat + r.offset).toNat
      else c
    | none => c

/-- Whether the first character that is not ignored for case is a cased one. -/
def reachesCased : List Char → Bool
  | [] => false
  | c :: cs =>
    if inRanges caseIgnorableRanges c.toNat then reachesCased cs
    else inRanges casedRanges c.toNat

/-- The lower case of a list of characters, `before` being what precedes it in reverse order. -/
def lowerFrom (before : List Char) : List Char → List Char
  | [] => []
  | c :: cs =>
    let small :=
      if c = 'Σ' then
        if reachesCased before && !reachesCased cs then ['ς'] else ['σ']
      else if c = 'İ' then ['i', '\u0307']
      else [lowerChar c]
    small ++ lowerFrom (c :: before) cs

def lower (s : String) : String :=
  String.ofList (lowerFrom [] s.toList)

end ChainQuery.Text
