import ChainQuery.Node.Client
import ChainQuery.Proofs.Output.Accounts
import ChainQuery.Proofs.Output.Departures
import ChainQuery.Proofs.Output.Replay
import ChainQuery.Proofs.Results

/-!
# Retries

Deliveries and calls to a node are tried again for as long as there is a delay to wait before the next
try. Whatever is answered, that is at most as often as the settings say. Requests come out of it one by
one, each delivered once or given up once.
-/

namespace ChainQuery

namespace RetryConfig

section Tries
variable {α σ : Type} (again : α → Bool) (step : σ → α × σ)

/-- Tries until nothing is to be tried again or there is no delay before the next try. If it were to
take more tries than allowed, there is no result. -/
def tries (c : RetryConfig) (s : σ) (failures : Nat) : Nat → Option (α × σ)
  | 0 => none
  | allowed + 1 =>
    if again (step s).1 then
      match c.nextDelay (failures + 1) with
      | some _ => c.tries (step s).2 (failures + 1) allowed
      | none => some (step s)
    else some (step s)

def tryUpTo (s : σ) : Nat → α × σ
  | 0 => step s
  | retries + 1 => if again (step s).1 then tryUpTo (step s).2 retries else step s

/-- One try more than there may be retries is enough. -/
theorem tries_eq_tryUpTo (c : RetryConfig) {failures allowed : Nat}
    (hfailures : failures ≤ c.maxRetries) (hallowed : c.maxRetries - failures < allowed) (s : σ) :
    c.tries again step s failures allowed =
      some (tryUpTo again step s (c.maxRetries - failures)) := by
  induction allowed generalizing failures s with
  | zero => exact absurd hallowed (Nat.not_lt_zero _)
  | succ allowed ih =>
    rw [tries]
    cases hdelay : c.nextDelay (failures + 1) with
    | none =>
      have hspent : ¬(0 < failures + 1 ∧ failures + 1 ≤ c.maxRetries) := by
        rw [← c.nextDelay_isSome_iff, hdelay]
        exact nofun
      have hlast : c.maxRetries - failures = 0 := by omega
      rw [hlast, tryUpTo]
      split <;> rfl
    | some delay =>
      have hleft := (c.nextDelay_isSome_iff (failures + 1)).mp (by rw [hdelay]; rfl)
      have hretries : c.maxRetries - failures = (c.maxRetries - (failures + 1)) + 1 := by omega
      rw [hretries, tryUpTo, ih hleft.2 (by omega)]
      split <;> rfl

end Tries
end RetryConfig

def Delivery.send (d : Delivery) (w : Wire) : Reply × Wire :=
  ((w.send d.post).2, (w.send d.post).1)

theorem Delivery.attempt_eq_tryUpTo (d : Delivery) (w : Wire) (retries : Nat) :
    d.attempt w retries =
      let (reply, after) := RetryConfig.tryUpTo (fun r => !r.isSuccess) d.send w retries
      (after, reply.isSuccess) := by
  induction retries generalizing w with
  | zero =>
    simp only [attempt, RetryConfig.tryUpTo, send]
    split
    · next hsuccess => rw [hsuccess]
    · next hfailure => rw [Bool.eq_false_iff.mpr hfailure]
  | succ retries ih =>
    simp only [attempt, RetryConfig.tryUpTo, send, ih, Bool.not_eq_true']
    cases hreply : (w.send d.post).2.isSuccess with
    | true => simp [hreply]
    | false => simp

/-- A call is made again when it has failed on the way. -/
def TransportError.callAgain : Except TransportError Json → Bool
  | .ok _ => false
  | .error e => e.isRetryable

theorem NodeClient.sendUpTo_eq_tryUpTo (c : NodeClient) (method : String) (params : Json)
    (retries : Nat) :
    c.sendUpTo method params retries =
      RetryConfig.tryUpTo TransportError.callAgain (fun c => c.send method params) c retries := by
  induction retries generalizing c with
  | zero => rfl
  | succ retries ih =>
    rw [sendUpTo, RetryConfig.tryUpTo]
    rcases c.send method params with ⟨e | result, c'⟩
    · simp only [ih]
      rfl
    · rfl

namespace Deliveries

/-- The posts that were made, and the most that may come of the requests that wait. -/
def posts (ds : Deliveries) (w : Wire) : Nat :=
  w.sent.length + (ds.retry.maxRetries + 1) * ds.requests.pending.length

theorem sent_deliver (ds : Deliveries) (w : Wire) (due : List Delivery) :
    (ds.deliver w due).1.retry = ds.retry ∧ (ds.deliver w due).2.sent.length ≤
      w.sent.length + (ds.retry.maxRetries + 1) * due.length := by
  induction due generalizing ds w with
  | nil => exact ⟨rfl, Nat.le_refl _⟩
  | cons d due ih =>
    obtain ⟨n, hle, hsent⟩ := d.attempt_sent w ds.retry.maxRetries
    have hlength : (d.attempt w ds.retry.maxRetries).1.sent.length = n + 1 + w.sent.length := by
      rw [hsent, List.length_append, List.length_replicate]
    rw [deliver, List.length_cons, Nat.mul_succ]
    rcases hattempt : d.attempt w ds.retry.maxRetries with ⟨w', _ | _⟩
    · obtain ⟨hretry, hrest⟩ := ih { ds with deadLetters := ds.deadLetters ++ [d] } w'
      rw [hattempt] at hlength
      dsimp only at hretry hrest hlength ⊢
      exact ⟨hretry, by omega⟩
    · obtain ⟨hretry, hrest⟩ := ih { ds with delivered := ds.delivered + 1 } w'
      rw [hattempt] at hlength
      dsimp only at hretry hrest hlength ⊢
      exact ⟨hretry, by omega⟩

/-- Delivering some of the requests that wait makes no more posts than may come of them. -/
theorem posts_deliver (ds : Deliveries) (w : Wire) {requests : Staging Delivery}
    {due : List Delivery} (hdue : due.length + requests.pending.length = ds.requests.pending.length) :
    let after := deliver { ds with requests := requests } w due
    after.1.retry = ds.retry ∧ after.1.posts after.2 ≤ ds.posts w := by
  obtain ⟨hretry, hsent⟩ := sent_deliver { ds with requests := requests } w due
  obtain ⟨hrequests, -⟩ := deliver_sent { ds with requests := requests } w due
  refine ⟨hretry, ?_⟩
  rw [posts, posts, hretry, hrequests, ← hdue, Nat.mul_add]
  dsimp only at hsent ⊢
  omega

end Deliveries

namespace Outputs

def posts (o : Outputs) : Nat :=
  o.deliveries.posts o.wire

theorem posts_discard (o : Outputs) : o.discard.posts ≤ o.posts := by
  refine Nat.add_le_add_left (Nat.mul_le_mul_left _ ?_) _
  show (o.deliveries.requests.committed ++ []).length ≤ (_ ++ _ : List Delivery).length
  rw [List.append_nil, List.length_append]
  exact Nat.le_add_right _ _

theorem posts_endProgram (o : Outputs) :
    o.endProgram.1.deliveries.retry = o.deliveries.retry ∧ o.endProgram.1.posts ≤ o.posts :=
  o.deliveries.posts_deliver o.wire (Nat.add_zero _)

theorem posts_endBlock (o : Outputs) :
    o.endBlock.1.deliveries.retry = o.deliveries.retry ∧ o.endBlock.1.posts ≤ o.posts := by
  have hpending := congrArg List.length o.deliveries.requests.endBlock_pending
  rw [List.length_append] at hpending
  exact o.deliveries.posts_deliver o.wire hpending

theorem posts_stage {o o' : Outputs} {item : OutputItem} (h : o.stage item = .ok o') :
    o'.deliveries.retry = o.deliveries.retry ∧ o'.posts = o.posts +
      (o.deliveries.retry.maxRetries + 1) * (item.request?.toList).length := by
  cases item with
  | row table cells =>
    obtain ⟨t, -, rfl⟩ := except_map_eq_ok.mp h
    exact ⟨rfl, rfl⟩
  | line text =>
    cases h
    exact ⟨rfl, rfl⟩
  | record r =>
    cases h
    exact ⟨rfl, rfl⟩
  | request d =>
    cases h
    refine ⟨rfl, ?_⟩
    have hlength : (o.deliveries.requests.push d).pending.length =
        o.deliveries.requests.pending.length + 1 := by
      rw [Staging.pending_push, List.length_append, List.length_singleton]
    show o.wire.sent.length + _ * (o.deliveries.requests.push d).pending.length = _
    rw [hlength, Nat.mul_add, ← Nat.add_assoc]
    rfl

/-- Each entry of a journal adds to the posts to be made only those of the request that it stages. -/
theorem posts_follow (o : Outputs) (e : JournalEntry) :
    (o.follow e).1.deliveries.retry = o.deliveries.retry ∧ (o.follow e).1.posts ≤ o.posts +
      (o.deliveries.retry.maxRetries + 1) *
        ((Journal.items [e]).filterMap OutputItem.request?).length := by
  have hno : ∀ o' : Outputs, o'.deliveries.retry = o.deliveries.retry ∧ o'.posts ≤ o.posts →
      o'.deliveries.retry = o.deliveries.retry ∧ o'.posts ≤ o.posts +
        (o.deliveries.retry.maxRetries + 1) *
          ((Journal.items [e]).filterMap OutputItem.request?).length :=
    fun _ h => ⟨h.1, Nat.le_add_right_of_le h.2⟩
  -- a post that is made was counted when its request was staged
  cases e with
  | entered x => exact hno _ ⟨rfl, Nat.le_refl _⟩
  | staged item =>
    rw [follow]
    cases hstage : o.stage item with
    | error e => exact hno _ ⟨rfl, Nat.le_refl _⟩
    | ok o' =>
      obtain ⟨hretry, hposts⟩ := posts_stage hstage
      refine ⟨hretry, Nat.le_of_eq (hposts.trans ?_)⟩
      cases item <;> rfl
  | moved path =>
    refine hno _ ?_
    show (o.moveTo path).deliveries.retry = _ ∧ (o.moveTo path).posts ≤ _
    unfold moveTo
    split <;> exact ⟨rfl, Nat.le_refl _⟩
  | closed failure =>
    cases failure with
    | none => exact hno _ o.posts_endProgram
    | some f =>
      obtain ⟨hretry, hposts⟩ := o.discard.posts_endProgram
      exact hno _ ⟨hretry, Nat.le_trans hposts o.posts_discard⟩
  | left c failure =>
    cases c with
    | block =>
      cases failure with
      | none => exact hno _ o.posts_endBlock
      | some f => exact hno _ ⟨rfl, o.posts_discard⟩
    | transaction => exact hno _ ⟨rfl, Nat.le_refl _⟩
    | logEntry => exact hno _ ⟨rfl, Nat.le_refl _⟩

/-- The posts along a journal are limited by the requests that wait and those that are staged. -/
theorem posts_replay (o : Outputs) (j : Journal) :
    (o.replay j).deliveries.retry = o.deliveries.retry ∧ (o.replay j).posts ≤ o.posts +
      (o.deliveries.retry.maxRetries + 1) * (j.items.filterMap OutputItem.request?).length := by
  induction j generalizing o with
  | nil => exact ⟨rfl, Nat.le_refl _⟩
  | cons e j ih =>
    obtain ⟨hretry, hposts⟩ := o.posts_follow e
    obtain ⟨hretry', hposts'⟩ := ih (o.follow e).1
    have hitems : (Journal.items (e :: j)).filterMap OutputItem.request? =
        (Journal.items [e]).filterMap OutputItem.request? ++
          (Journal.items j).filterMap OutputItem.request? := by
      rw [← List.filterMap_append]
      exact congrArg _ (List.filterMap_append (l := [e]) ..)
    rw [replay_cons, hitems, List.length_append, Nat.mul_add]
    rw [hretry] at hretry' hposts'
    exact ⟨hretry', by omega⟩

end Outputs

section Outcomes

def exchangesWith (peer : Peer) : List Post → List (Post × Reply)
  | [] => []
  | p :: sent => exchangesWith peer sent ++ [(p, peer sent p)]

/-- The posts with the replies to them, in their order. -/
def Wire.exchanges (w : Wire) : List (Post × Reply) :=
  exchangesWith w.peer w.sent

structure Outcome where
  request : Delivery
  replies : List Reply
deriving DecidableEq, Repr

namespace Outcome

def exchanges (x : Outcome) : List (Post × Reply) :=
  x.replies.map (x.request.post, ·)

def succeeds (x : Outcome) : Bool :=
  x.replies.any Reply.isSuccess

/-- A request is delivered by the first post that succeeds, or given up when as many have failed as
there may be. -/
inductive Settled (retries : Nat) : Outcome → Prop where
  | delivered {d : Delivery} {failures : List Reply} {reply : Reply} :
    (∀ r ∈ failures, r.isSuccess = false) → failures.length ≤ retries → reply.isSuccess = true →
      Settled retries ⟨d, failures ++ [reply]⟩
  | givenUp {d : Delivery} {failures : List Reply} :
    (∀ r ∈ failures, r.isSuccess = false) → failures.length = retries + 1 →
      Settled retries ⟨d, failures⟩

theorem settled_at_once {d : Delivery} {reply : Reply} (h : reply.isSuccess = true) (retries : Nat) :
    Settled retries ⟨d, [reply]⟩ := by
  have hnone : ∀ r ∈ ([] : List Reply), r.isSuccess = false := nofun
  exact .delivered hnone (Nat.zero_le _) h

theorem Settled.cons {retries : Nat} {d : Delivery} {replies : List Reply} {reply : Reply}
    (h : Settled retries ⟨d, replies⟩) (hreply : reply.isSuccess = false) :
    Settled (retries + 1) ⟨d, reply :: replies⟩ := by
  cases h with
  | delivered hfailures hle hsuccess =>
    exact .delivered (List.forall_mem_cons.mpr ⟨hreply, hfailures⟩) (Nat.succ_le_succ hle) hsuccess
  | givenUp hfailures hlength =>
    exact .givenUp (List.forall_mem_cons.mpr ⟨hreply, hfailures⟩) (congrArg (· + 1) hlength)

/-- The outcome of posts that were made on the way from one state of the network to another. -/
structure Tried (x : Outcome) (retries : Nat) (w : Wire) (after : Wire × Bool) : Prop where
  settled : x.Settled retries
  peer : after.1.peer = w.peer
  exchanges : after.1.exchanges = w.exchanges ++ x.exchanges
  succeeds : after.2 = x.succeeds

end Outcome

namespace Delivery
variable {d : Delivery} {w : Wire}

end Delivery

namespace Deliveries

/-- What has come of requests: each is settled before anything is posted for the next one, and is
counted once, as delivered or among the dead letters. -/
structure Accounted (ds : Deliveries) (w : Wire) (outcomes : List Outcome) (ds' : Deliveries)
    (w' : Wire) : Prop where
  settled : ∀ x ∈ outcomes, x.Settled ds.retry.maxRetries
  peer : w'.peer = w.peer
  exchanges : w'.exchanges = w.exchanges ++ outcomes.flatMap Outcome.exchanges
  delivered : ds'.delivered = ds.delivered + outcomes.countP Outcome.succeeds
  deadLetters : ds'.deadLetters =
    ds.deadLetters ++ (outcomes.filter (!·.succeeds)).map (·.request)

theorem Accounted.append {ds ds' ds'' : Deliveries} {w w' w'' : Wire} {xs ys : List Outcome}
    (hxs : ds.Accounted w xs ds' w') (hys : ds'.Accounted w' ys ds'' w'')
    (hretry : ds'.retry = ds.retry) : ds.Accounted w (xs ++ ys) ds'' w'' where
  settled := List.forall_mem_append.mpr ⟨hxs.settled, hretry ▸ hys.settled⟩
  peer := hys.peer.trans hxs.peer
  exchanges := by rw [hys.exchanges, hxs.exchanges, List.flatMap_append, List.append_assoc]
  delivered := by rw [hys.delivered, hxs.delivered, List.countP_append, Nat.add_assoc]
  deadLetters := by
    rw [hys.deadLetters, hxs.deadLetters, List.filter_append, List.map_append, List.append_assoc]

def perform (ds : Deliveries) (w : Wire) (step : StageStep Delivery) : Deliveries × Wire :=
  deliver { ds with requests := (ds.requests.perform step).1 } w (ds.requests.perform step).2

def performAll (ds : Deliveries) (w : Wire) (steps : List (StageStep Delivery)) :
    Deliveries × Wire :=
  steps.foldl (fun x step => perform x.1 x.2 step) (ds, w)

end Deliveries

namespace Outputs

def serve (o : Outputs) : StageStep Delivery → Outputs × Option WriterError
  | .push d =>
    match o.stage (.request d) with
    | .ok o' => (o', none)
    | .error e => (o, some e)
  | .endBlock => o.endBlock
  | .discard => (o.discard, none)
  | .endProgram => o.endProgram

end Outputs

end Outcomes
end ChainQuery
