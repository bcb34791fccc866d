import ChainQuery.Proofs.Abi.Decoded
import ChainQuery.Proofs.Abi.Words
import ChainQuery.Proofs.Text.Utf8

/-!
# Encoded values are decoded

A decoder that stands where the encoding of a value stands gives that value. A static value stands
there itself. A dynamic one has a word there, which refers to a place after the heads. So the heads
and the tails of a sequence are followed together: what remains of both is where the remaining
members stand. Types are not to be nested deeper than the frames of the decoder allow.
-/

namespace ChainQuery.Abi

/-- Bytes that stand in a frame from a position on. -/
structure Stands (bytes frame : List UInt8) (pos : Nat) : Prop where
  inside : pos ≤ frame.length
  here : bytes <+: frame.drop pos

namespace Stands

variable {a b frame : List UInt8} {pos : Nat}

theorem left (h : Stands (a ++ b) frame pos) : Stands a frame pos :=
  ⟨h.inside, (List.prefix_append a b).trans h.here⟩

theorem right (h : Stands (a ++ b) frame pos) : Stands b frame (pos + a.length) := by
  obtain ⟨rest, hrest⟩ := h.here
  have hlength := congrArg List.length hrest
  simp only [List.length_append, List.length_drop] at hlength
  have hinside := h.inside
  refine ⟨by omega, rest, ?_⟩
  rw [← List.drop_drop, ← hrest, List.append_assoc, List.drop_left]

theorem length_le (h : Stands a frame pos) : pos + a.length ≤ frame.length := by
  have hlength := h.here.length_le
  rw [List.length_drop] at hlength
  have hinside := h.inside
  omega

theorem inner (h : Stands a frame pos) : Stands a (frame.drop pos) 0 :=
  ⟨Nat.zero_le _, h.here⟩

theorem take_drop (h : Stands a frame pos) : (frame.drop pos).take a.length = a := by
  obtain ⟨rest, hrest⟩ := h.here
  rw [← hrest, List.take_left]

end Stands

section Reading

variable {depth pos off n : Nat} {frame data content : List UInt8}

theorem wordAt?_of_stands {w : List UInt8} (h : Stands w frame pos) (hw : w.length = 32) :
    wordAt? frame pos = some w := by
  have htake := h.take_drop
  rw [hw] at htake
  rw [wordAt?, htake]
  exact if_pos hw

theorem offsetAt?_of_stands (h : Stands (word n) frame pos) (hn : n < 2 ^ 64) :
    offsetAt? frame pos = some n := by
  rw [offsetAt?, wordAt?_of_stands h (length_word n), Option.map_some, bigEndian_drop_word hn]

theorem referred?_of_stands (hdepth : depth < frameLimit) (hframe : frame.length < 2 ^ 64)
    (hword : Stands (word off) frame pos) (hcontent : Stands content frame off) :
    referred? depth frame pos = some (frame.drop off) := by
  have hoff := hcontent.inside
  rw [referred?, offsetAt?_of_stands hword (by omega), Option.bind_some]
  exact if_pos ⟨hdepth, hoff⟩

theorem bytesAt?_of_stands (hdepth : depth < frameLimit) (hframe : frame.length < 2 ^ 64)
    (hword : Stands (word off) frame pos) (hcontent : Stands (encodeBytes data) frame off) :
    bytesAt? depth frame pos = some data := by
  have hinner := hcontent.inner
  have hlength := hcontent.length_le
  simp only [encodeBytes, padRight, List.length_append, length_word] at hlength
  have hdata : Stands data (frame.drop off) 32 := by
    have h := hinner.right
    rw [length_word] at h
    exact h.left
  rw [bytesAt?, referred?_of_stands hdepth hframe hword hcontent]
  simp only [Option.bind_eq_bind, Option.bind_some]
  rw [offsetAt?_of_stands hinner.left (by omega), Option.bind_some, hdata.take_drop]
  exact if_pos rfl

end Reading

/-! ## Heads and tails -/

theorem length_heads (off : Nat) (ps : List Part) : (heads off ps).length = headsLength ps := by
  induction ps generalizing off with
  | nil => rfl
  | cons p ps ih =>
    rw [heads, headsLength, Part.headLength]
    split <;> simp [ih, length_word]

theorem tails_of_static {ps : List Part} (h : ∀ p ∈ ps, p.dynamic = false) : tails ps = [] := by
  induction ps with
  | nil => rfl
  | cons p ps ih =>
    obtain ⟨hp, hps⟩ := List.forall_mem_cons.1 h
    rw [tails, hp, ih hps]
    rfl

/-- A part whose head stands at one position and whose tail, if it is dynamic, at another one. -/
def Part.Lies (p : Part) (frame : List UInt8) (pos off : Nat) : Prop :=
  if p.dynamic then Stands (word off) frame pos ∧ Stands p.content frame off
  else Stands p.content frame pos

/-- Parts whose heads stand from one position on and whose tails from another one on. -/
structure Laid (ps : List Part) (frame : List UInt8) (pos off : Nat) : Prop where
  heads : Stands (heads off ps) frame pos
  tails : Stands (tails ps) frame off

theorem Laid.cons {p : Part} {ps : List Part} {frame : List UInt8} {pos off : Nat}
    (h : Laid (p :: ps) frame pos off) : p.Lies frame pos off ∧
      ∃ off', Laid ps frame (pos + p.headLength) off' := by
  obtain ⟨hheads, htails⟩ := h
  cases hp : p.dynamic with
  | true =>
    rw [Abi.heads, hp] at hheads
    rw [Abi.tails, hp] at htails
    rw [Part.Lies, Part.headLength, hp]
    have hnext := hheads.right
    rw [length_word] at hnext
    exact ⟨⟨hheads.left, htails.left⟩, off + p.content.length, hnext, htails.right⟩
  | false =>
    rw [Abi.heads, hp] at hheads
    rw [Abi.tails, hp] at htails
    rw [Part.Lies, Part.headLength, hp]
    exact ⟨hheads.left, off, hheads.right, htails⟩

/-- The parts of a sequence stand in the frame that starts with it. -/
theorem laid_of_layout {ps : List Part} {frame : List UInt8} (h : Stands (layout ps) frame 0) :
    Laid ps frame 0 (headsLength ps) := by
  have htails := h.right
  rw [length_heads, Nat.zero_add] at htails
  exact ⟨h.left, htails⟩

/-- The parts of a static sequence stand where the sequence stands. -/
theorem laid_of_static {ps : List Part} {frame : List UInt8} {pos : Nat}
    (hps : ∀ p ∈ ps, p.dynamic = false) (h : Stands (layout ps) frame pos) :
    Laid ps frame pos (headsLength ps) := by
  have hlength := h.left.length_le
  rw [length_heads] at hlength
  refine ⟨h.left, by omega, ?_⟩
  rw [tails_of_static hps]
  exact List.nil_prefix

theorem length_layout (ps : List Part) :
    (layout ps).length = headsLength ps + (tails ps).length := by
  rw [layout, List.length_append, length_heads]

/-! ## Static and dynamic values -/

theorem anyDynamic_of_forall {vs : List AbiValue} {b : Bool} (hne : vs ≠ [])
    (h : ∀ v ∈ vs, v.isDynamic = b) : AbiValue.isDynamic.anyDynamic vs = b := by
  induction vs with
  | nil => exact absurd rfl hne
  | cons v vs ih =>
    obtain ⟨hv, hvs⟩ := List.forall_mem_cons.1 h
    rw [AbiValue.isDynamic.anyDynamic, hv]
    cases vs with
    | nil => exact Bool.or_false b
    | cons w ws => rw [ih (by simp) hvs, Bool.or_self]

mutual

theorem isDynamic_of_has : ∀ {t : AbiType} {v : AbiValue}, t.Has v → v.isDynamic = t.isDynamic
  | .fixedArray element _, .fixedArray items, .fixedArray hne hitems => by
    have h : ∀ v ∈ items, v.isDynamic = element.isDynamic := fun v hv =>
      isDynamic_of_has (hitems v hv)
    exact anyDynamic_of_forall hne h
  | .tuple fields, _, .tuple hvs => anyDynamic_of_allHave hvs
  | _, _, .bool | _, _, .int _ _ _ | _, _, .uint _ _ | _, _, .fixedBytes _ | _, _, .address _
  | _, _, .function _ | _, _, .bytes | _, _, .string | _, _, .array _ _ => rfl

theorem anyDynamic_of_allHave : ∀ {ts : List AbiType} {vs : List AbiValue},
    AbiType.AllHave ts vs →
    AbiValue.isDynamic.anyDynamic vs = AbiType.isDynamic.anyDynamic ts
  | _, _, .nil => rfl
  | _ :: _, _ :: _, .cons hv hvs => by
    rw [AbiValue.isDynamic.anyDynamic, isDynamic_of_has hv, anyDynamic_of_allHave hvs]
    rfl

end

theorem isDynamic_of_mem {vs : List AbiValue} {v : AbiValue}
    (h : AbiValue.isDynamic.anyDynamic vs = false) (hv : v ∈ vs) : v.isDynamic = false := by
  induction vs with
  | nil => cases hv
  | cons w vs ih =>
    obtain ⟨hw, hvs⟩ := Bool.or_eq_false_iff.1 h
    rcases List.mem_cons.1 hv with rfl | hv
    · exact hw
    · exact ih hvs hv

theorem static_of_forall {vs : List AbiValue} (h : ∀ v ∈ vs, v.isDynamic = false) :
    ∀ p ∈ parts vs, p.dynamic = false := by
  induction vs with
  | nil => simp [parts]
  | cons v vs ih =>
    obtain ⟨hv, hvs⟩ := List.forall_mem_cons.1 h
    exact List.forall_mem_cons.2 ⟨hv, ih hvs⟩

/-! ## The least words of an encoding -/

def encodedLength : List AbiValue → Nat
  | [] => 0
  | v :: vs => (encode v).length + encodedLength vs

/-- Neither heads nor tails leave out what a member is encoded as. -/
theorem encodedLength_le (vs : List AbiValue) : encodedLength vs ≤ (layout (parts vs)).length := by
  rw [length_layout]
  induction vs with
  | nil => exact Nat.zero_le _
  | cons v vs ih =>
    simp only [encodedLength, parts, headsLength, tails, Part.headLength]
    split
    · rw [List.length_append]
      omega
    · omega

theorem length_le_layout {vs : List AbiValue} {n : Nat} (h : ∀ v ∈ vs, n ≤ (encode v).length) :
    vs.length * n ≤ (layout (parts vs)).length := by
  refine Nat.le_trans ?_ (encodedLength_le vs)
  induction vs with
  | nil => simp
  | cons v vs ih =>
    obtain ⟨hv, hvs⟩ := List.forall_mem_cons.1 h
    have hrest := ih hvs
    rw [encodedLength, List.length_cons, Nat.succ_mul]
    omega

mutual

theorem leastWords_le : ∀ {t : AbiType} {v : AbiValue}, t.Has v →
    t.leastWords * 32 ≤ (encode v).length
  | .fixedArray element _, .fixedArray items, .fixedArray _ hitems => by
    have h : ∀ v ∈ items, element.leastWords * 32 ≤ (encode v).length := fun v hv =>
      leastWords_le (hitems v hv)
    rw [AbiType.leastWords, Nat.mul_assoc]
    exact length_le_layout h
  | .tuple fields, .tuple vs, .tuple hvs => by
    rw [AbiType.leastWords]
    exact Nat.le_trans (leastSum_le hvs) (encodedLength_le vs)
  | .array _, .array items, .array _ _ => by
    rw [encode, List.length_append, length_word]
    exact Nat.le_add_right _ _
  | .bytes, .bytes _, _ | .string, .string _, _ => by
    rw [encode, encodeBytes, List.length_append, length_word]
    exact Nat.le_add_right _ _
  | .bool, _, h | .int _, _, h | .uint _, _, h | .fixedBytes _, _, h | .address, _, h
  | .function, _, h => by
    rw [length_encode_word h rfl]
    exact Nat.le_refl _

theorem leastSum_le : ∀ {ts : List AbiType} {vs : List AbiValue}, AbiType.AllHave ts vs →
    AbiType.leastWords.leastSum ts * 32 ≤ encodedLength vs
  | _, _, .nil => Nat.le_refl _
  | _ :: _, _ :: _, .cons hv hvs => by
    rw [AbiType.leastWords.leastSum, encodedLength, Nat.add_mul]
    exact Nat.add_le_add (leastWords_le hv) (leastSum_le hvs)

end

end ChainQuery.Abi

namespace ChainQuery.AbiType

/-- The frames that the decoder enters for a value of a type. -/
def frames : AbiType → Nat
  | bytes => 1
  | string => 1
  | array element => element.frames + 2
  | fixedArray element _ => element.frames + 1
  | tuple fields => most fields + 1
  | _ => 0
where
  most : List AbiType → Nat
    | [] => 0
    | field :: fields => max field.frames (most fields)

end ChainQuery.AbiType

namespace ChainQuery.Abi

/-! ## The decoder follows the encoder -/

def partOf (v : AbiValue) : Part :=
  ⟨v.isDynamic, encode v⟩

/-- Wherever a value stands in a frame, it is decoded there. -/
def Follows (depth : Nat) (frame : List UInt8) (t : AbiType) (v : AbiValue) : Prop :=
  ∀ pos off, (partOf v).Lies frame pos off →
    decodeAt? depth frame pos t = some (v, pos + (partOf v).headLength)

theorem decodeItems?_of_laid {depth pos off : Nat} {frame : List UInt8} {t : AbiType}
    {vs : List AbiValue} (hdecode : ∀ v ∈ vs, Follows depth frame t v)
    (h : Laid (parts vs) frame pos off) :
    decodeItems? depth frame pos t vs.length = some (vs, pos + headsLength (parts vs)) := by
  induction vs generalizing pos off with
  | nil =>
    rw [List.length_nil, decodeItems?]
    rfl
  | cons v vs ih =>
    obtain ⟨hv, hvs⟩ := List.forall_mem_cons.1 hdecode
    obtain ⟨hlies, off', hrest⟩ := Laid.cons h
    rw [List.length_cons, decodeItems?, hv pos off hlies]
    simp only [partOf, ih hvs hrest, Option.map_some, parts, headsLength, Nat.add_assoc]

theorem isDynamic_word {t : AbiType} {v : AbiValue} (hv : t.Has v) (ht : t.isReference = false) :
    v.isDynamic = false := by
  rw [isDynamic_of_has hv]
  cases t <;> first | rfl | cases ht

theorem follows_word {t : AbiType} {v : AbiValue} (hv : t.Has v) (ht : t.isReference = false)
    (depth : Nat) (frame : List UInt8) : Follows depth frame t v := by
  intro pos off h
  have hstatic := isDynamic_word hv ht
  have hlength := length_encode_word hv ht
  rw [Part.Lies, partOf, hstatic] at h
  rw [decodeAt?_word ht, wordAt?_of_stands h hlength, Option.bind_some, ofWord?_encode hv ht,
    partOf, hstatic, Part.headLength]
  simp [hlength]

section Members
variable {depth : Nat} {frame : List UInt8}

theorem follows_bytes (hdepth : depth < frameLimit) (hframe : frame.length < 2 ^ 64)
    (data : List UInt8) : Follows depth frame .bytes (.bytes data) := by
  intro pos off h
  obtain ⟨hword, hcontent⟩ := h
  rw [decodeAt?, bytesAt?_of_stands hdepth hframe hword hcontent]
  rfl

theorem follows_string (hdepth : depth < frameLimit) (hframe : frame.length < 2 ^ 64) (s : String) :
    Follows depth frame .string (.string s) := by
  intro pos off h
  obtain ⟨hword, hcontent⟩ := h
  rw [decodeAt?, bytesAt?_of_stands hdepth hframe hword hcontent, Option.map_some, Text.ofUtf8_utf8]
  rfl

theorem enough_words {element : AbiType} {items : List AbiValue} {inner : List UInt8}
    (hitems : ∀ v ∈ items, element.Has v) (h : Stands (layout (parts items)) inner 0) :
    ¬ inner.length / 32 < element.leastWords * items.length := by
  have hleast := length_le_layout fun v hv => leastWords_le (hitems v hv)
  have hbytes := h.length_le
  rw [Nat.mul_comm, Nat.div_lt_iff_lt_mul (by decide), Nat.mul_assoc]
  omega

/-- The members of a list are decoded in a frame of their own, two frames below that of the list. -/
theorem follows_array {element : AbiType} {items : List AbiValue} (hlength : items.length < 2 ^ 64)
    (hitems : ∀ v ∈ items, element.Has v) (hdepth : depth + 2 ≤ frameLimit)
    (hframe : frame.length < 2 ^ 64)
    (hmembers : ∀ inner : List UInt8, inner.length < 2 ^ 64 →
      ∀ v ∈ items, Follows (depth + 2) inner element v) :
    Follows depth frame (.array element) (.array items) := by
  intro pos off h
  obtain ⟨hword, hcontent⟩ := h
  have hinner := hcontent.inner
  have hrest := hinner.right
  rw [length_word, Nat.zero_add] at hrest
  rw [decodeAt?, referred?_of_stands (by omega) hframe hword hcontent]
  simp only [offsetAt?_of_stands hinner.left hlength]
  cases items with
  | nil => rfl
  | cons item items =>
    have hframes : innerFrame? (depth + 1) (frame.drop off) 32 =
        some ((frame.drop off).drop 32) := if_pos ⟨by omega, hrest.inside⟩
    have hdecoded := decodeItems?_of_laid (hmembers ((frame.drop off).drop 32) (by simp; omega))
      (laid_of_layout hrest.inner)
    rw [if_neg (by simp), hframes]
    simp only [if_neg (enough_words hitems hrest.inner), hdecoded]
    rfl

/-- The members of an array of fixed length stand in the frame around it if they are static, and in a
frame of their own otherwise. -/
theorem follows_fixedArray {element : AbiType} {items : List AbiValue} (hne : items ≠ [])
    (hitems : ∀ v ∈ items, element.Has v) (hdepth : depth < frameLimit)
    (hframe : frame.length < 2 ^ 64)
    (hmembers : ∀ inner : List UInt8, inner.length < 2 ^ 64 →
      ∀ v ∈ items, Follows (depth + 1) inner element v) :
    Follows depth frame (.fixedArray element items.length) (.fixedArray items) := by
  intro pos off h
  have hall : ∀ v ∈ items, v.isDynamic = element.isDynamic := fun v hv =>
    isDynamic_of_has (hitems v hv)
  have hdynamic : (AbiValue.fixedArray items).isDynamic = element.isDynamic :=
    anyDynamic_of_forall hne hall
  rw [Part.Lies, partOf, hdynamic] at h
  rw [decodeAt?, partOf, Part.headLength, hdynamic]
  cases helement : element.isDynamic with
  | true =>
    rw [helement] at h
    obtain ⟨hword, hcontent⟩ := h
    have hdecoded := decodeItems?_of_laid (hmembers (frame.drop off) (by simp; omega))
      (laid_of_layout hcontent.inner)
    rw [if_pos rfl, referred?_of_stands hdepth hframe hword hcontent]
    simp only [hdecoded]
    rfl
  | false =>
    rw [helement] at h
    have hstatic := static_of_forall fun v hv => (hall v hv).trans helement
    have hdecoded := decodeItems?_of_laid (hmembers frame hframe) (laid_of_static hstatic h)
    rw [if_neg (by simp), if_pos hdepth]
    simp only [hdecoded, encode, length_layout, tails_of_static hstatic]
    rfl

/-- So do the fields of a tuple. -/
theorem follows_tuple {fields : List AbiType} {vs : List AbiValue} (hvs : AbiType.AllHave fields vs)
    (hdepth : depth < frameLimit) (hframe : frame.length < 2 ^ 64)
    (hmembers : ∀ (inner : List UInt8) (pos off : Nat), inner.length < 2 ^ 64 →
      Laid (parts vs) inner pos off →
      decodeFields? (depth + 1) inner pos fields = some (vs, pos + headsLength (parts vs))) :
    Follows depth frame (.tuple fields) (.tuple vs) := by
  intro pos off h
  have hdynamic : (AbiValue.tuple vs).isDynamic = AbiType.isDynamic.anyDynamic fields :=
    anyDynamic_of_allHave hvs
  rw [Part.Lies, partOf, hdynamic] at h
  rw [decodeAt?, partOf, Part.headLength, hdynamic]
  cases hfields : AbiType.isDynamic.anyDynamic fields with
  | true =>
    rw [hfields] at h
    obtain ⟨hword, hcontent⟩ := h
    have hdecoded := hmembers (frame.drop off) _ _ (by simp; omega) (laid_of_layout hcontent.inner)
    rw [if_pos rfl, referred?_of_stands hdepth hframe hword hcontent]
    simp only [hdecoded]
    rfl
  | false =>
    rw [hfields] at h
    have hstatic := static_of_forall fun v hv => isDynamic_of_mem (hdynamic.trans hfields) hv
    have hdecoded := hmembers frame _ _ hframe (laid_of_static hstatic h)
    rw [if_neg (by simp), if_pos hdepth]
    simp only [hdecoded, encode, length_layout, tails_of_static hstatic]
    rfl

end Members

mutual

/-- A well-typed value is decoded wherever it stands, if its type is not nested too deep. -/
theorem follows_of_has : ∀ {t : AbiType} {v : AbiValue} {depth : Nat} {frame : List UInt8},
    t.Has v → depth + t.frames ≤ frameLimit → frame.length < 2 ^ 64 → Follows depth frame t v
  | .bytes, .bytes data, _, _, _, hdepth, hframe => follows_bytes hdepth hframe data
  | .string, .string s, _, _, _, hdepth, hframe => follows_string hdepth hframe s
  | .array element, .array items, depth, frame, .array hlength hitems, hdepth, hframe => by
    rw [AbiType.frames] at hdepth
    exact follows_array hlength hitems (by omega) hframe fun inner hinner v hv =>
      follows_of_has (hitems v hv) (by omega) hinner
  | .fixedArray element _, .fixedArray items, depth, frame, .fixedArray hne hitems, hdepth,
      hframe => by
    rw [AbiType.frames] at hdepth
    exact follows_fixedArray hne hitems (by omega) hframe fun inner hinner v hv =>
      follows_of_has (hitems v hv) (by omega) hinner
  | .tuple fields, .tuple vs, depth, frame, .tuple hvs, hdepth, hframe => by
    rw [AbiType.frames] at hdepth
    exact follows_tuple hvs (by omega) hframe fun inner pos off hinner hlaid =>
      decodeFields?_of_laid hvs (by omega) hinner hlaid
  | .bool, _, _, _, hv, _, _ | .int _, _, _, _, hv, _, _ | .uint _, _, _, _, hv, _, _
  | .fixedBytes _, _, _, _, hv, _, _ | .address, _, _, _, hv, _, _
  | .function, _, _, _, hv, _, _ => follows_word hv rfl _ _

/-- The fields of a tuple are decoded one after the other. -/
theorem decodeFields?_of_laid : ∀ {ts : List AbiType} {vs : List AbiValue} {depth pos off : Nat}
    {frame : List UInt8}, AbiType.AllHave ts vs → depth + AbiType.frames.most ts ≤ frameLimit →
    frame.length < 2 ^ 64 → Laid (parts vs) frame pos off →
    decodeFields? depth frame pos ts = some (vs, pos + headsLength (parts vs))
  | _, _, depth, pos, off, frame, .nil, _, _, _ => by
    rw [decodeFields?]
    rfl
  | t :: ts, v :: vs, depth, pos, off, frame, .cons hv hvs, hdepth, hframe, h => by
    rw [AbiType.frames.most] at hdepth
    have hone : depth + t.frames ≤ frameLimit := by omega
    have hmost : depth + AbiType.frames.most ts ≤ frameLimit := by omega
    obtain ⟨hlies, off', hrest⟩ := Laid.cons h
    have hfirst := follows_of_has hv hone hframe pos off hlies
    have hfields := decodeFields?_of_laid hvs hmost hframe hrest
    rw [decodeFields?, hfirst]
    simp only [partOf, hfields, Option.map_some, parts, headsLength, Nat.add_assoc]

end

theorem stands_self (bytes : List UInt8) : Stands bytes bytes 0 :=
  ⟨Nat.zero_le _, List.prefix_refl bytes⟩

/-- Well-typed values are decoded from their encoding, if their types are not nested deeper than the
decoder goes and hold some data. -/
theorem decodeAll?_encodeAll {ts : List AbiType} {vs : List AbiValue} (hvs : AbiType.AllHave ts vs)
    (hframes : AbiType.frames.most ts ≤ frameLimit) (hlength : (encodeAll vs).length < 2 ^ 64)
    (hdata : ts = [] ∨ ts.all AbiType.isHollow = false) :
    decodeAll? ts (encodeAll vs) = some vs := by
  rcases hdata with rfl | hdata
  · cases hvs
    rfl
  · have hdepth : 0 + AbiType.frames.most ts ≤ frameLimit := by omega
    have hfields := decodeFields?_of_laid hvs hdepth hlength (laid_of_layout (stands_self _))
    rw [decodeAll?, if_neg (by simp [hdata]), hfields]
    rfl

theorem decode?_encode {t : AbiType} {v : AbiValue} (hv : t.Has v) (ht : t.isReference = false) :
    decode? t (encode v) = some v := by
  have hlies : (partOf v).Lies (encode v) 0 0 := by
    rw [Part.Lies, partOf, isDynamic_word hv ht]
    exact stands_self _
  rw [decode?_word ht, follows_word hv ht 0 (encode v) 0 0 hlies]
  rfl

end ChainQuery.Abi
