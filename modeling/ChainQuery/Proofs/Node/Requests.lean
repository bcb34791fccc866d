import ChainQuery.Proofs.Node.Envelopes
import ChainQuery.Proofs.Output.Retries

/-!
# Requests to a node

A request is sent until a reply is an answer, or as often as it may be, and gives what its last reply
says. The sends of a client are numbered through all of its requests, and whatever a client is asked
about the chain, requests are all that it makes.
-/

namespace ChainQuery

/-- What a reply says to a request. A reply with a status of success says what the document in its body
answers, and is malformed if there is no such answer; a reply that never arrives or has another status is
a failure on the way. -/
inductive Reply.Says : Reply → Except TransportError Json → Prop where
  | result {status : Nat} {body : String} {j result : Json} : 200 ≤ status → status < 300 →
      Json.read? body = some j → Rpc.Answers j (.ok result) → Says (.answered status body) (.ok result)
  | refused {status : Nat} {body : String} {j : Json} {e : RpcError} : 200 ≤ status → status < 300 →
      Json.read? body = some j → Rpc.Answers j (.error e) →
      Says (.answered status body) (.error (.rpc e))
  | malformed {status : Nat} {body reason : String} : 200 ≤ status → status < 300 →
      (∀ j, Json.read? body = some j → ∀ outcome, ¬Rpc.Answers j outcome) →
      Says (.answered status body) (.error (.malformed reason))
  | status {status : Nat} {body : String} : ¬(200 ≤ status ∧ status < 300) →
      Says (.answered status body) (.error (.status status body))
  | dropped : Says .dropped (.error .unreachable)

theorem NodeClient.says_readReply (r : Reply) : r.Says (readReply r) := by
  cases r with
  | dropped => exact .dropped
  | answered status body =>
    rw [readReply]
    split
    · next hstatus =>
      rcases hresponse : Rpc.readResponse? body with _ | e | result
      · refine .malformed hstatus.1 hstatus.2 fun j hread outcome hanswers => ?_
        exact nomatch hresponse.symm.trans (Rpc.readResponse?_eq_some_iff.mpr ⟨j, hread, hanswers⟩)
      · obtain ⟨j, hread, hanswers⟩ := Rpc.readResponse?_eq_some_iff.mp hresponse
        exact .refused hstatus.1 hstatus.2 hread hanswers
      · obtain ⟨j, hread, hanswers⟩ := Rpc.readResponse?_eq_some_iff.mp hresponse
        exact .result hstatus.1 hstatus.2 hread hanswers
    · next hstatus => exact .status hstatus

theorem Reply.isSuccess_answered {status : Nat} {body : String} :
    (answered status body).isSuccess = true ↔ 200 ≤ status ∧ status < 300 := by
  simp [isSuccess]

/-- Failures on the way, and nothing else, are tried again. -/
theorem Reply.Says.callAgain_eq {r : Reply} {outcome : Except TransportError Json}
    (h : r.Says outcome) : TransportError.callAgain outcome = !r.isSuccess := by
  cases h with
  | result hlow hhigh _ _ => rw [isSuccess_answered.mpr ⟨hlow, hhigh⟩]; rfl
  | refused hlow hhigh _ _ => rw [isSuccess_answered.mpr ⟨hlow, hhigh⟩]; rfl
  | malformed hlow hhigh _ => rw [isSuccess_answered.mpr ⟨hlow, hhigh⟩]; rfl
  | status hstatus => rw [Bool.eq_false_iff.mpr (mt isSuccess_answered.mp hstatus)]; rfl
  | dropped => rfl

/-- A request with the replies to its sends and what it gives. -/
structure Round where
  request : RpcRequest
  replies : List Reply
  outcome : Except TransportError Json

namespace Round

/-- The sends of a round, which all carry its request, with the replies to them. -/
def sends (x : Round) : List (RpcRequest × Reply) :=
  x.replies.map (x.request, ·)

/-- A request is answered by the first reply that is no failure on the way, or given up with the last of
as many failures as there may be. It gives what its last reply says. -/
inductive Settled (retries : Nat) : Round → Prop where
  | answered {r : RpcRequest} {failures : List Reply} {last : Reply}
      {outcome : Except TransportError Json} : (∀ x ∈ failures, x.isSuccess = false) →
      failures.length ≤ retries → last.isSuccess = true → last.Says outcome →
      Settled retries ⟨r, failures ++ [last], outcome⟩
  | givenUp {r : RpcRequest} {failures : List Reply} {last : Reply}
      {outcome : Except TransportError Json} : (∀ x ∈ failures, x.isSuccess = false) →
      failures.length = retries → last.isSuccess = false → last.Says outcome →
      Settled retries ⟨r, failures ++ [last], outcome⟩

variable {retries : Nat} {r : RpcRequest} {reply : Reply} {replies : List Reply}
  {outcome : Except TransportError Json}

theorem settled_at_once (hanswer : reply.Says outcome) (h : reply.isSuccess = true ∨ retries = 0) :
    Settled retries ⟨r, [reply], outcome⟩ := by
  have hnone : ∀ x ∈ ([] : List Reply), x.isSuccess = false := nofun
  cases hreply : reply.isSuccess with
  | true => exact .answered hnone (Nat.zero_le _) hreply hanswer
  | false =>
    have hretries : retries = 0 := h.resolve_left (by rw [hreply]; exact nofun)
    exact .givenUp hnone hretries.symm hreply hanswer

theorem Settled.cons (h : Settled retries ⟨r, replies, outcome⟩) (hreply : reply.isSuccess = false) :
    Settled (retries + 1) ⟨r, reply :: replies, outcome⟩ := by
  cases h with
  | answered hfailures hle hsuccess hanswer =>
    exact .answered (List.forall_mem_cons.mpr ⟨hreply, hfailures⟩) (Nat.succ_le_succ hle) hsuccess
      hanswer
  | givenUp hfailures hlength hfails hanswer =>
    exact .givenUp (List.forall_mem_cons.mpr ⟨hreply, hfailures⟩) (congrArg (· + 1) hlength) hfails
      hanswer

end Round

/-- The sends were posts to an address, each under the number that follows that of the one before. -/
inductive Numbered (url : String) : Nat → List (RpcRequest × Reply) → List (Post × Reply) → Prop where
  | nil {id : Nat} : Numbered url id [] []
  | cons {id : Nat} {r : RpcRequest} {reply : Reply} {p : Post} {sends : List (RpcRequest × Reply)}
      {exchanges : List (Post × Reply)} : p.Carries url id r → Numbered url (id + 1) sends exchanges →
      Numbered url id ((r, reply) :: sends) ((p, reply) :: exchanges)

namespace Numbered
variable {url : String} {id : Nat} {xs ys : List (RpcRequest × Reply)}
  {posted posted' : List (Post × Reply)}

theorem append (hxs : Numbered url id xs posted) (hys : Numbered url (id + xs.length) ys posted') :
    Numbered url id (xs ++ ys) (posted ++ posted') := by
  induction hxs with
  | nil => exact hys
  | cons hcarries _ ih =>
    rw [List.length_cons, Nat.add_comm _ 1, ← Nat.add_assoc] at hys
    exact .cons hcarries (ih hys)

/-- Each post has a number that is no less than that of the first one. -/
theorem exists_carries (h : Numbered url id xs posted) {x : Post × Reply} (hx : x ∈ posted) :
    ∃ i r, id ≤ i ∧ x.1.Carries url i r := by
  induction h with
  | nil => cases hx
  | cons hcarries _ ih =>
    rcases List.mem_cons.mp hx with rfl | hx
    · exact ⟨_, _, Nat.le_refl _, hcarries⟩
    · obtain ⟨i, r, hle, hcarries⟩ := ih hx
      exact ⟨i, r, Nat.le_of_succ_le hle, hcarries⟩

/-- No two sends are the same post. -/
theorem nodup (h : Numbered url id xs posted) : (posted.map (·.1)).Nodup := by
  induction h with
  | nil => exact List.nodup_nil
  | cons hcarries hrest ih =>
    refine List.nodup_cons.mpr ⟨fun hmem => ?_, ih⟩
    obtain ⟨x, hx, rfl⟩ := List.mem_map.mp hmem
    obtain ⟨i, r, hle, hlater⟩ := hrest.exists_carries hx
    exact absurd (hcarries.id_eq hlater) (by omega)

end Numbered

namespace NodeClient

/-- A client after sends, each of which was posted under the next number. -/
structure Sends (c : NodeClient) (sends : List (RpcRequest × Reply)) (c' : NodeClient) : Prop where
  url : c'.url = c.url
  retry : c'.retry = c.retry
  peer : c'.wire.peer = c.wire.peer
  nextId : c'.nextId = c.nextId + sends.length
  exchanges : ∃ posted, c'.wire.exchanges = c.wire.exchanges ++ posted ∧
    Numbered c.url c.nextId sends posted

theorem sends_nil (c : NodeClient) : c.Sends [] c :=
  ⟨rfl, rfl, rfl, rfl, [], (List.append_nil _).symm, .nil⟩

theorem Sends.append {c c' c'' : NodeClient} {xs ys : List (RpcRequest × Reply)}
    (hxs : c.Sends xs c') (hys : c'.Sends ys c'') : c.Sends (xs ++ ys) c'' where
  url := hys.url.trans hxs.url
  retry := hys.retry.trans hxs.retry
  peer := hys.peer.trans hxs.peer
  nextId := by rw [hys.nextId, hxs.nextId, List.length_append, Nat.add_assoc]
  exchanges := by
    obtain ⟨posted, hposted, hnumbered⟩ := hxs.exchanges
    obtain ⟨posted', hposted', hnumbered'⟩ := hys.exchanges
    rw [hxs.url, hxs.nextId] at hnumbered'
    exact ⟨posted ++ posted', by rw [hposted', hposted, List.append_assoc],
      hnumbered.append hnumbered'⟩

theorem sends_send (c : NodeClient) (r : RpcRequest) :
    ∃ reply : Reply, reply.Says (c.send r.method r.params).1 ∧
      c.Sends [(r, reply)] (c.send r.method r.params).2 :=
  ⟨_, says_readReply _, rfl, rfl, rfl, rfl, _, rfl,
    .cons (Post.carries_requestText c.url c.nextId r) .nil⟩

theorem sendUpTo_settled (c : NodeClient) (r : RpcRequest) (retries : Nat) :
    ∃ replies, Round.Settled retries ⟨r, replies, (c.sendUpTo r.method r.params retries).1⟩ ∧
      c.Sends (replies.map (r, ·)) (c.sendUpTo r.method r.params retries).2 := by
  simp only [sendUpTo_eq_tryUpTo]
  induction retries generalizing c with
  | zero =>
    obtain ⟨reply, hanswer, hsends⟩ := c.sends_send r
    exact ⟨[reply], Round.settled_at_once hanswer (.inr rfl), hsends⟩
  | succ retries ih =>
    obtain ⟨reply, hanswer, hsends⟩ := c.sends_send r
    rw [RetryConfig.tryUpTo, hanswer.callAgain_eq]
    cases hreply : reply.isSuccess with
    | true => exact ⟨[reply], Round.settled_at_once hanswer (.inl hreply), hsends⟩
    | false =>
      obtain ⟨replies, hsettled, hrest⟩ := ih (c.send r.method r.params).2
      exact ⟨reply :: replies, hsettled.cons hreply, hsends.append hrest⟩

def requestAll (c : NodeClient) :
    List RpcRequest → List (Except TransportError Json) × NodeClient
  | [] => ([], c)
  | r :: requests =>
    let (outcome, c) := (request r.method r.params).run c
    let (outcomes, c) := requestAll c requests
    (outcome :: outcomes, c)

theorem requestAll_settled (c : NodeClient) (requests : List RpcRequest) :
    ∃ rounds : List Round, rounds.map Round.request = requests ∧
      (∀ x ∈ rounds, x.Settled c.retry.maxRetries) ∧
      (c.requestAll requests).1 = rounds.map Round.outcome ∧
      c.Sends (rounds.flatMap Round.sends) (c.requestAll requests).2 := by
  induction requests generalizing c with
  | nil => exact ⟨[], rfl, nofun, rfl, c.sends_nil⟩
  | cons r requests ih =>
    obtain ⟨replies, hsettled, hsends⟩ := c.sendUpTo_settled r c.retry.maxRetries
    obtain ⟨rounds, hrequests, hall, houtcomes, hrest⟩ :=
      ih (c.sendUpTo r.method r.params c.retry.maxRetries).2
    rw [hsends.retry] at hall
    let round : Round := ⟨r, replies, (c.sendUpTo r.method r.params c.retry.maxRetries).1⟩
    exact ⟨round :: rounds, congrArg (r :: ·) hrequests, List.forall_mem_cons.mpr ⟨hsettled, hall⟩,
      congrArg (round.outcome :: ·) houtcomes, hsends.append hrest⟩

/-- Makes requests one after the other, each by the loop that goes on while there is a delay to wait
before the next try. -/
def requestLoops (c : NodeClient) :
    List RpcRequest → Option (List (Except TransportError Json) × NodeClient)
  | [] => some ([], c)
  | r :: requests => do
    let (outcome, c) ← c.retry.tries TransportError.callAgain
      (fun c => c.send r.method r.params) c 0 (c.retry.maxRetries + 1)
    let (outcomes, c) ← requestLoops c requests
    return (outcome :: outcomes, c)

theorem requestLoops_eq (c : NodeClient) (requests : List RpcRequest) :
    c.requestLoops requests = some (c.requestAll requests) := by
  induction requests generalizing c with
  | nil => rfl
  | cons r requests ih =>
    have hloop := c.retry.tries_eq_tryUpTo TransportError.callAgain
      (fun c => NodeClient.send c r.method r.params) (Nat.zero_le _) (Nat.lt_succ_self _) c
    rw [Nat.sub_zero, ← sendUpTo_eq_tryUpTo] at hloop
    simp only [requestLoops, bind, hloop, Option.bind_some, ih]
    rfl

section Questions

/-- Steps that do nothing with a client but to make requests. -/
def Asks (x : Talk ε α) : Prop :=
  ∀ c : NodeClient, ∃ requests, (x.run c).2 = (c.requestAll requests).2

theorem requestAll_append (c : NodeClient) (xs ys : List RpcRequest) :
    (c.requestAll (xs ++ ys)).2 = ((c.requestAll xs).2.requestAll ys).2 := by
  induction xs generalizing c with
  | nil => rfl
  | cons r xs ih => exact ih _

theorem asks_resume (e : Except ε α) : Asks (ExceptT.mk (pure e) : Talk ε α) :=
  fun _ => ⟨[], rfl⟩

theorem asks_request (method : String) {params : Json} (hparams : params.Proper) :
    Asks (request method params) :=
  fun _ => ⟨[⟨method, params, hparams⟩], rfl⟩

theorem Asks.adapt {x : Talk ε α} (hx : Asks x) (f : ε → ε') : Asks (ExceptT.adapt f x) :=
  fun c => hx c

theorem Asks.bind {x : Talk ε α} {f : α → Talk ε β} (hx : Asks x) (hf : ∀ a, Asks (f a)) :
    Asks (x >>= f) := by
  intro c
  obtain ⟨requests, hrequests⟩ := hx c
  have hrun : (x >>= f).run c = ExceptT.bindCont f (x.run c).1 (x.run c).2 := rfl
  rw [hrun]
  rcases hfirst : x.run c with ⟨e | a, c'⟩
  · rw [hfirst] at hrequests
    exact ⟨requests, hrequests⟩
  · rw [hfirst] at hrequests
    obtain ⟨later, hlater⟩ := hf a c'
    refine ⟨requests ++ later, hlater.trans ?_⟩
    rw [requestAll_append, ← hrequests]

theorem asks_ask (method : String) {params : Json} (hparams : params.Proper) :
    Asks (ask method params) :=
  (asks_request method hparams).adapt _

theorem asks_head : Asks head := by
  have hparams : (Json.array []).Proper := .array fun _ h => nomatch h
  exact (asks_ask _ hparams).bind fun _ => (asks_resume _).bind fun _ => asks_resume _

theorem asks_logsOf (tag : String) : Asks (logsOf tag) := by
  have hrange : (Json.array [.object [("fromBlock", .string tag), ("toBlock", .string tag)]]).Proper :=
    .array (List.forall_mem_singleton.mpr (.object (by simp [Json.Proper.string])))
  refine (asks_ask _ hrange).bind fun answer => ?_
  cases answer.array? with
  | none => exact asks_resume _
  | some items => exact asks_resume _

theorem asks_block (number : Nat) : Asks (block number) := by
  have hparams : (Json.array [.string (Quantity.text number), .bool true]).Proper :=
    .array (by simp [Json.Proper.string, Json.Proper.bool])
  refine (asks_ask _ hparams).bind fun answer => ?_
  cases answer with
  | null => exact asks_resume _
  | _ => exact (asks_resume _).bind fun b => (asks_logsOf _).bind fun logs => asks_resume _

theorem asks_call (contract : String) (data : List UInt8) (block : Option Nat) :
    Asks (call contract data block) := by
  have hparams (text tag : String) :
      (Json.array [.object [("to", .string contract), ("data", .string text)], .string tag]).Proper :=
    .array (List.forall_mem_cons.mpr ⟨.object (by simp [Json.Proper.string]),
      List.forall_mem_singleton.mpr (.string tag)⟩)
  exact ((asks_request _ (hparams _ _)).adapt _).bind fun _ =>
    (asks_resume _).bind fun _ => asks_resume _

theorem after_requests (c : NodeClient) (i : Inquiry) :
    ∃ requests, c.after i = (c.requestAll requests).2 := by
  cases i with
  | head => exact asks_head c
  | block number => exact asks_block number c
  | call contract data number => exact asks_call contract data number c
  | connect _ => exact ⟨[], rfl⟩

/-- Whatever a client is asked, its state after it is that after some requests. -/
theorem afterAll_requests (c : NodeClient) (start : Nat) (asked : History) :
    ∃ requests, c.afterAll start asked = (c.requestAll requests).2 := by
  unfold afterAll
  induction asked.take (asked.length - start) with
  | nil => exact ⟨[], rfl⟩
  | cons i earlier ih =>
    obtain ⟨requests, hrequests⟩ := ih
    obtain ⟨later, hlater⟩ := (c.requestAll requests).2.after_requests i
    refine ⟨requests ++ later, ?_⟩
    rw [List.foldr_cons, hrequests, hlater, requestAll_append]

end Questions

/-- Each request of a new client is settled by its sends, which follow those of the requests before it, and
is the loop over the delays. All sends together have the numbers from one on, so that no post is made
twice. Whatever the client is asked about the chain, it does nothing but to make requests. -/
theorem requests_settled (url : String) (config : RequestConfig) (wire : Wire) :
    (∀ requests : List RpcRequest, ∃ (rounds : List Round) (after : NodeClient)
        (posted : List (Post × Reply)),
      rounds.map Round.request = requests ∧
      (∀ x ∈ rounds, x.Settled config.retry.maxRetries) ∧
      (start url config wire).requestAll requests = (rounds.map Round.outcome, after) ∧
      (start url config wire).requestLoops requests = some (rounds.map Round.outcome, after) ∧
      after.wire.exchanges = wire.exchanges ++ posted ∧
      Numbered url 1 (rounds.flatMap Round.sends) posted ∧
      (posted.map (·.1)).Nodup) ∧
    ∀ (first : Nat) (asked : History), ∃ requests : List RpcRequest,
      (start url config wire).afterAll first asked = ((start url config wire).requestAll requests).2 := by
  refine ⟨fun requests => ?_, (start url config wire).afterAll_requests⟩
  obtain ⟨rounds, hrequests, hsettled, houtcomes, hsends⟩ :=
    (start url config wire).requestAll_settled requests
  obtain ⟨posted, hposted, hnumbered⟩ := hsends.exchanges
  have hall : (start url config wire).requestAll requests =
      (rounds.map Round.outcome, ((start url config wire).requestAll requests).2) :=
    Prod.ext houtcomes rfl
  have hloops := (start url config wire).requestLoops_eq requests
  rw [hall] at hloops
  exact ⟨rounds, _, posted, hrequests, hsettled, hall, hloops, hposted, hnumbered, hnumbered.nodup⟩

def headAnswer : String := "\x7b\"id\":3,\"result\":\"0x10\"\x7d"

def refusal : String := "\x7b\"id\":4,\"error\":\x7b\"code\":-32000,\"message\":\"reverted\"\x7d\x7d"

/-- A node that is not there for the first post, not ready for the second, answers the third, and refuses
all others. -/
def lateNode : Peer := fun sent _ =>
  match sent.length with
  | 0 => .dropped
  | 1 => .answered 503 "starting"
  | 2 => .answered 200 headAnswer
  | _ => .answered 200 refusal

def twoRetries : RequestConfig :=
  { retry := { maxRetries := 2 }, timeout := usualTimeout }

def lateStart : NodeClient :=
  start "http://node" twoRetries { peer := lateNode }

def headThenCall : List RpcRequest :=
  [⟨"eth_blockNumber", .array [], .array fun _ h => nomatch h⟩,
    ⟨"eth_call", .array [.string "latest"], .array (List.forall_mem_singleton.mpr (.string _))⟩]

/-- The first request takes three posts, the second one a single post. -/
theorem requests_settled_lateNode :
    ∃ (rounds : List Round) (posted : List (Post × Reply)),
      rounds.map Round.request = headThenCall ∧ (∀ x ∈ rounds, x.Settled 2) ∧
      (lateStart.requestAll headThenCall).1 = rounds.map Round.outcome ∧
      (rounds.map Round.outcome).map (fun x => (x.map Json.text).mapError TransportError.message) =
        [.ok "\"0x10\"", .error "JSON-RPC error -32000: reverted"] ∧
      Numbered "http://node" 1 (rounds.flatMap Round.sends) posted ∧
      posted.map (fun x => (x.1.body, x.2)) = [
        ("\x7b\"jsonrpc\":\"2.0\",\"id\":1,\"method\":\"eth_blockNumber\",\"params\":[]\x7d",
          .dropped),
        ("\x7b\"jsonrpc\":\"2.0\",\"id\":2,\"method\":\"eth_blockNumber\",\"params\":[]\x7d",
          .answered 503 "starting"),
        ("\x7b\"jsonrpc\":\"2.0\",\"id\":3,\"method\":\"eth_blockNumber\",\"params\":[]\x7d",
          .answered 200 headAnswer),
        ("\x7b\"jsonrpc\":\"2.0\",\"id\":4,\"method\":\"eth_call\",\"params\":[\"latest\"]\x7d",
          .answered 200 refusal)] := by
  obtain ⟨rounds, after, posted, hrequests, hsettled, hall, -, hposted, hnumbered, -⟩ :=
    (requests_settled "http://node" twoRetries { peer := lateNode }).1 headThenCall
  have houtcomes : (lateStart.requestAll headThenCall).1 = rounds.map Round.outcome :=
    congrArg Prod.fst hall
  have hafter : (lateStart.requestAll headThenCall).2 = after := congrArg Prod.snd hall
  have hexchanges : (lateStart.requestAll headThenCall).2.wire.exchanges = posted := by
    rw [hafter, hposted]
    rfl
  refine ⟨rounds, posted, hrequests, hsettled, houtcomes, ?_, hnumbered, ?_⟩
  · rw [← houtcomes]
    decide +kernel
  · rw [← hexchanges]
    decide +kernel

end NodeClient
end ChainQuery
