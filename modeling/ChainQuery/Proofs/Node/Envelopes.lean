import ChainQuery.Node.Rpc
import ChainQuery.Proofs.Json.ReadBack
import ChainQuery.Proofs.Results
import ChainQuery.Wire

/-!
# Envelopes of requests and answers

The members of the documents that go to a node and come from it. A request has its number, its method
and its parameters as members. An answer holds an error or else a result, which may be missing, and a
document that holds neither in a form that is known is no answer.
-/

namespace ChainQuery

namespace Json

/-- The value of a name among the fields of an object, where it stands once if at all. -/
inductive Member (fields : List (String × Json)) (name : String) : Option Json → Prop where
  | missing : (∀ f ∈ fields, f.1 ≠ name) → Member fields name none
  | once {before after : List (String × Json)} {value : Json} :
      fields = before ++ (name, value) :: after → (∀ f ∈ before ++ after, f.1 ≠ name) →
      Member fields name (some value)

/-- The values of names in a document: the members of an object, or the items of a list in their order, of
which the last ones may be missing. -/
inductive Members (names : List String) : Json → List (Option Json) → Prop where
  | object {fields : List (String × Json)} {values : List (Option Json)} :
      List.Forall₂ (Member fields) names values → Members names (object fields) values
  | array {items : List Json} {missing : Nat} : items.length + missing = names.length →
      Members names (array items) (items.map some ++ List.replicate missing none)

/-- The value of a name as `record?` looks for it. -/
def onlyValue? (fields : List (String × Json)) (name : String) : Option (Option Json) :=
  match fields.filter fun f => f.1 == name with
  | [] => some none
  | [f] => some (some f.2)
  | _ => none

theorem Member.of_onlyValue? {fields : List (String × Json)} {name : String} {value : Option Json}
    (h : onlyValue? fields name = some value) : Member fields name value := by
  rw [onlyValue?] at h
  split at h
  · next hnone =>
    obtain rfl := Option.some.inj h
    exact .missing fun f hf => by simpa using List.filter_eq_nil_iff.mp hnone f hf
  · next f hone =>
    obtain rfl := Option.some.inj h
    obtain ⟨before, after, hfields, hbefore, hname, hrest⟩ := List.filter_eq_cons_iff.mp hone
    obtain rfl : f.1 = name := by simpa using hname
    refine .once hfields fun f' hf => ?_
    rcases List.mem_append.mp hf with hf | hf
    · simpa using hbefore f' hf
    · simpa using List.filter_eq_nil_iff.mp hrest f' hf
  · cases h

theorem Member.onlyValue?_eq {fields : List (String × Json)} {name : String} {value : Option Json}
    (h : Member fields name value) : onlyValue? fields name = some value := by
  cases h with
  | missing hnone =>
    have hfilter : fields.filter (fun f => f.1 == name) = [] :=
      List.filter_eq_nil_iff.mpr fun f hf => by simpa using hnone f hf
    rw [onlyValue?, hfilter]
  | @once before after value hfields hother =>
    have hafter : after.filter (fun f => f.1 == name) = [] :=
      List.filter_eq_nil_iff.mpr fun f hf => by simpa using hother f (List.mem_append_right _ hf)
    have hfilter : fields.filter (fun f => f.1 == name) = [(name, value)] :=
      List.filter_eq_cons_iff.mpr ⟨before, after, hfields,
        fun f hf => by simpa using hother f (List.mem_append_left _ hf), beq_self_eq_true name, hafter⟩
    rw [onlyValue?, hfilter]

theorem record?_eq_some_iff {names : List String} {j : Json} {values : List (Option Json)} :
    j.record? names = some values ↔ j.Members names values := by
  cases j with
  | object fields =>
    have hrecord : record? names (object fields) = names.mapM (onlyValue? fields) := rfl
    rw [hrecord, option_mapM_eq_some]
    constructor
    · exact fun h => .object (h.imp fun _ _ => Member.of_onlyValue?)
    · rintro ⟨h⟩
      exact h.imp fun _ _ => Member.onlyValue?_eq
  | array items =>
    rw [record?]
    constructor
    · intro h
      split at h
      · next hle =>
        obtain rfl := Option.some.inj h
        exact .array (Nat.add_sub_cancel' hle)
      · cases h
    · rintro ⟨⟩
      next missing hmissing =>
        rw [if_pos (by omega), Nat.sub_eq_of_eq_add' hmissing.symm]
  | _ => exact ⟨nofun, nofun⟩

/-- A member that may be missing, with what its value stands for. Null counts as missing. -/
inductive Given (R : Json → α → Prop) : Option Json → Option α → Prop where
  | missing : Given R none none
  | null : Given R (some null) none
  | value {j : Json} {a : α} : j ≠ null → R j a → Given R (some j) (some a)

theorem optional_eq_some_iff {read : Json → Option α} {R : Json → α → Prop}
    (hread : ∀ j a, read j = some a ↔ R j a) {j : Option Json} {a : Option α} :
    optional read j = some a ↔ Given R j a := by
  constructor
  · intro h
    unfold optional at h
    split at h
    · cases h
      exact .missing
    · cases h
      exact .null
    · next j hnull =>
      obtain ⟨a, ha, rfl⟩ := Option.map_eq_some_iff.mp h
      exact .value hnull ((hread j a).mp ha)
  · intro h
    cases h with
    | missing => rfl
    | null => rfl
    | @value j a hne ha =>
      rw [optional, (hread j a).mpr ha]
      · rfl
      · exact hne

/-- A document in the form in which it is held, if its nesting is within a limit. -/
structure HeldWithin (depth : Nat) (j held : Json) : Prop where
  nesting : j.nesting ≤ depth
  held : j.held? = some held

theorem heldWithin?_eq_some_iff (depth : Nat) (j held : Json) :
    heldWithin? depth j = some held ↔ HeldWithin depth j held := by
  rw [heldWithin?]
  constructor
  · intro h
    split at h
    · next hdepth => exact ⟨hdepth, h⟩
    · cases h
  · rintro ⟨hdepth, hheld⟩
    rw [if_pos hdepth, hheld]

end Json

namespace Rpc

/-- A document says that a call was refused: it has a code, a message, and perhaps more data. -/
inductive Refuses (j : Json) : RpcError → Prop where
  | mk {code : Json} {number : Int} {message : String} {data kept : Option Json} :
      j.Members ["code", "message", "data"] [some code, some (.string message), data] →
      code.int? 64 = some number →
      Json.Given (Json.HeldWithin (Json.nestingLimit - 2)) data kept →
      Refuses j ⟨number, message, kept⟩

/-- The outcome of an answer: its error if it holds one, else its result, which is null where it is
missing. -/
inductive Answers (j : Json) : Except RpcError Json → Prop where
  | result {result error kept : Option Json} : j.Members ["result", "error"] [result, error] →
      Json.Given (Json.HeldWithin (Json.nestingLimit - 1)) result kept →
      Json.Given Refuses error none → Answers j (.ok (kept.getD .null))
  | refused {result error kept : Option Json} {e : RpcError} :
      j.Members ["result", "error"] [result, error] →
      Json.Given (Json.HeldWithin (Json.nestingLimit - 1)) result kept →
      Json.Given Refuses error (some e) → Answers j (.error e)

theorem Refuses.of_readError? {j : Json} {e : RpcError} (h : readError? j = some e) :
    Refuses j e := by
  rw [readError?] at h
  obtain ⟨values, hvalues, h⟩ := Option.bind_eq_some_iff.mp h
  split at h
  · next code message data =>
    obtain ⟨number, hnumber, h⟩ := Option.bind_eq_some_iff.mp h
    obtain ⟨text, htext, h⟩ := Option.bind_eq_some_iff.mp h
    obtain ⟨kept, hkept, h⟩ := Option.bind_eq_some_iff.mp h
    obtain rfl := Option.some.inj h
    cases message <;> cases htext
    exact .mk (Json.record?_eq_some_iff.mp hvalues) hnumber
      ((Json.optional_eq_some_iff (Json.heldWithin?_eq_some_iff _)).mp hkept)
  · cases h

theorem Refuses.readError?_eq {j : Json} {e : RpcError} (h : Refuses j e) :
    readError? j = some e := by
  obtain ⟨hmembers, hnumber, hkept⟩ := h
  have hkept := (Json.optional_eq_some_iff (Json.heldWithin?_eq_some_iff _)).mpr hkept
  simp only [readError?, bind, Json.record?_eq_some_iff.mpr hmembers, Option.bind_some, hnumber,
    Json.string?, hkept, pure]

theorem readError?_eq_some_iff (j : Json) (e : RpcError) : readError? j = some e ↔ Refuses j e :=
  ⟨Refuses.of_readError?, Refuses.readError?_eq⟩

theorem Answers.of_readResponse? {text : String} {outcome : Except RpcError Json}
    (h : readResponse? text = some outcome) : ∃ j, Json.read? text = some j ∧ Answers j outcome := by
  rw [readResponse?] at h
  obtain ⟨j, hread, h⟩ := Option.bind_eq_some_iff.mp h
  obtain ⟨values, hvalues, h⟩ := Option.bind_eq_some_iff.mp h
  refine ⟨j, hread, ?_⟩
  split at h
  · next result error =>
    obtain ⟨kept, hkept, h⟩ := Option.bind_eq_some_iff.mp h
    obtain ⟨refused, hrefused, h⟩ := Option.bind_eq_some_iff.mp h
    have hmembers := Json.record?_eq_some_iff.mp hvalues
    have hresult := (Json.optional_eq_some_iff (Json.heldWithin?_eq_some_iff _)).mp hkept
    have herror := (Json.optional_eq_some_iff readError?_eq_some_iff).mp hrefused
    cases refused with
    | none =>
      cases h
      exact .result hmembers hresult herror
    | some e =>
      cases h
      exact .refused hmembers hresult herror
  · cases h

theorem Answers.readResponse?_eq {text : String} {j : Json} {outcome : Except RpcError Json}
    (hread : Json.read? text = some j) (h : Answers j outcome) :
    readResponse? text = some outcome := by
  cases h with
  | result hmembers hresult herror =>
    have hresult := (Json.optional_eq_some_iff (Json.heldWithin?_eq_some_iff _)).mpr hresult
    have herror := (Json.optional_eq_some_iff readError?_eq_some_iff).mpr herror
    simp only [readResponse?, bind, hread, Option.bind_some,
      Json.record?_eq_some_iff.mpr hmembers, hresult, herror, pure]
  | refused hmembers hresult herror =>
    have hresult := (Json.optional_eq_some_iff (Json.heldWithin?_eq_some_iff _)).mpr hresult
    have herror := (Json.optional_eq_some_iff readError?_eq_some_iff).mpr herror
    simp only [readResponse?, bind, hread, Option.bind_some,
      Json.record?_eq_some_iff.mpr hmembers, hresult, herror, pure]

/-- What is read from a text is what the document in it answers. -/
theorem readResponse?_eq_some_iff {text : String} {outcome : Except RpcError Json} :
    readResponse? text = some outcome ↔ ∃ j, Json.read? text = some j ∧ Answers j outcome :=
  ⟨Answers.of_readResponse?, fun ⟨_, hread, h⟩ => h.readResponse?_eq hread⟩

end Rpc

/-- A call of a method. Its parameters are any document that can be built. -/
structure RpcRequest where
  method : String
  params : Json
  proper : params.Proper

/-- A post to an address that holds a request under a number. -/
structure Post.Carries (p : Post) (url : String) (id : Nat) (r : RpcRequest) : Prop where
  uri : p.uri = url
  body : ∃ j, Json.read? p.body = some j ∧ j.Members ["jsonrpc", "id", "method", "params"]
    [some (.string "2.0"), some (.ofNat id), some (.string r.method), some r.params]

theorem Rpc.read?_requestText (id : Nat) (r : RpcRequest) :
    Json.read? (requestText id r.method r.params) = some (.object [("jsonrpc", .string "2.0"),
      ("id", .ofNat id), ("method", .string r.method), ("params", r.params)]) := by
  refine Json.read?_text (.object ?_)
  have hid : (Json.ofNat id).Proper := .number (Numeral.proper_ofInt _)
  simpa using ⟨.string "2.0", hid, .string r.method, r.proper⟩

theorem Post.carries_requestText (url : String) (id : Nat) (r : RpcRequest) :
    (⟨url, Rpc.requestText id r.method r.params⟩ : Post).Carries url id r where
  uri := rfl
  body := ⟨_, Rpc.read?_requestText id r, Json.record?_eq_some_iff.mp rfl⟩

theorem Json.ofNat_inj {i j : Nat} (h : ofNat i = ofNat j) : i = j := by
  have hdigits : Text.render 10 i = Text.render 10 j := congrArg Numeral.whole (Json.number.inj h)
  have hread := Text.readRun?_render i
  rw [hdigits, Text.readRun?_render] at hread
  exact (Option.some.inj hread).symm

/-- A post tells the number of its request. -/
theorem Post.Carries.id_eq {p : Post} {url url' : String} {i i' : Nat} {r r' : RpcRequest}
    (h : p.Carries url i r) (h' : p.Carries url' i' r') : i = i' := by
  obtain ⟨j, hread, hmembers⟩ := h.body
  obtain ⟨j', hread', hmembers'⟩ := h'.body
  obtain rfl := Option.some.inj (hread.symm.trans hread')
  have hvalues :=
    (Json.record?_eq_some_iff.mpr hmembers).symm.trans (Json.record?_eq_some_iff.mpr hmembers')
  simp only [Option.some.injEq, List.cons.injEq] at hvalues
  exact Json.ofNat_inj hvalues.2.1

end ChainQuery
