import ChainQuery.Proofs.Scan.Bounded
import ChainQuery.Proofs.Scan.Endless

/-!
# Fragments of programs

A fragment admits some filters and some terms. A property of computations that the admitted steps have,
and that is kept where computations are put together, is one of every instruction of the fragment. The
fragment of all programs needs no conditions on what is admitted.
-/

namespace ChainQuery

def Bound.terms : Bound → List Term
  | number t => [t]
  | _ => []

def Predicate.terms : Predicate → List Term
  | compare _ left right => [left, right]
  | and left right => left.terms ++ right.terms
  | or left right => left.terms ++ right.terms
  | not operand => operand.terms
  | term t => [t]

def Emission.terms : Emission → List Term
  | row _ columns => columns.map Prod.snd
  | line values => values
  | trace process instanceId fields =>
    process :: instanceId :: fields.map AttributeField.value
  | event process instanceId id fields =>
    process :: instanceId :: (id.toList ++ fields.map AttributeField.value)
  | request uri fields => uri :: fields.map Prod.snd

def Filter.terms : Filter → List Term
  | blocks range => range.first.terms ++ range.last.terms
  | transactions _ _ => []
  | logEntries _ _ => []
  | contract address reads => address :: reads.flatMap fun r => r.inputs.map Argument.term
  | condition predicate => predicate.terms

structure Fragment where
  filter : Filter → Prop
  term : Term → Prop

namespace Fragment

def all : Fragment := ⟨fun _ => True, fun _ => True⟩

/-- Two views in which the terms of a fragment read the same. -/
def Alike (F : Fragment) (v w : View) : Prop :=
  v.variables = w.variables ∧ ∀ t, F.term t → t.eval v = t.eval w

/-- A reading of a view that depends on the terms of a fragment only. -/
def Reads (F : Fragment) (read : View → Except ExecutionError α) : Prop :=
  ∀ v w, F.Alike v w → read v = read w

end Fragment

namespace Instruction

mutual

/-- All filters and terms in an instruction, at any depth, belong to a fragment. -/
def Within (F : Fragment) : Instruction → Prop
  | sequence body => WithinAll F body
  | filter f body => F.filter f ∧ (∀ t ∈ f.terms, F.term t) ∧ WithinAll F body
  | assign _ value => F.term value
  | call _ args _ => ∀ t ∈ args, F.term t
  | emit e => ∀ t ∈ e.terms, F.term t
  | setFolder _ => True
  | connect _ => True

def WithinAll (F : Fragment) : List Instruction → Prop
  | [] => True
  | i :: is => Within F i ∧ WithinAll F is

end

mutual

theorem within_all (i : Instruction) : i.Within .all := by
  cases i with
  | sequence body =>
    rw [Within]
    exact withinAll_all body
  | filter f body =>
    rw [Within]
    exact ⟨trivial, fun _ _ => trivial, withinAll_all body⟩
  | assign target value => trivial
  | call method args target => exact fun _ _ => trivial
  | emit e => exact fun _ _ => trivial
  | setFolder path => trivial
  | connect url => trivial

theorem withinAll_all (is : List Instruction) : WithinAll .all is := by
  cases is with
  | nil => trivial
  | cons i is =>
    rw [WithinAll]
    exact ⟨within_all i, withinAll_all is⟩

end

end Instruction

namespace Fragment
variable {F : Fragment}

theorem mapM_congr {f g : α → Except ε β} {as : List α} (h : ∀ a ∈ as, f a = g a) :
    as.mapM f = as.mapM g := by
  induction as with
  | nil => rfl
  | cons a as ih =>
    rw [List.mapM_cons, List.mapM_cons, h a List.mem_cons_self,
      ih fun b hb => h b (List.mem_cons_of_mem a hb)]

theorem reads_term {t : Term} (ht : F.term t) : F.Reads t.eval :=
  fun _ _ h => h.2 t ht

theorem reads_text {t : Term} (ht : F.term t) : F.Reads t.evalText := by
  intro v w h
  exact congrArg (Except.map Value.text) (h.2 t ht)

theorem reads_mapM {read : View → α → Except ExecutionError β} {as : List α}
    (h : ∀ a ∈ as, F.Reads fun v => read v a) : F.Reads fun v => as.mapM (read v) :=
  fun v w hvw => mapM_congr fun a ha => h a ha v w hvw

theorem reads_bind {read : View → Except ExecutionError α}
    {next : α → View → Except ExecutionError β} (hread : F.Reads read)
    (hnext : ∀ a, F.Reads (next a)) : F.Reads fun v => read v >>= fun a => next a v := by
  intro v w h
  show (read v >>= fun a => next a v) = (read w >>= fun a => next a w)
  rw [hread v w h]
  exact congrArg (read w >>= ·) (funext fun a => hnext a v w h)

theorem reads_const (result : Except ExecutionError α) : F.Reads fun _ => result :=
  fun _ _ _ => rfl

theorem reads_predicate {p : Predicate} (h : ∀ t ∈ p.terms, F.term t) : F.Reads p.eval := by
  induction p with
  | compare c left right =>
    refine reads_bind (reads_term (h left List.mem_cons_self)) fun a => ?_
    refine reads_bind (reads_term (h right ?_)) fun b => reads_const _
    exact List.mem_cons_of_mem _ List.mem_cons_self
  | and left right ihl ihr =>
    have hright := ihr fun t ht => h t (List.mem_append_right _ ht)
    refine reads_bind (ihl fun t ht => h t (List.mem_append_left _ ht)) fun b => ?_
    cases b with
    | true => exact hright
    | false => exact reads_const _
  | or left right ihl ihr =>
    have hright := ihr fun t ht => h t (List.mem_append_right _ ht)
    refine reads_bind (ihl fun t ht => h t (List.mem_append_left _ ht)) fun b => ?_
    cases b with
    | true => exact reads_const _
    | false => exact hright
  | not operand ih => exact reads_bind (ih h) fun b => reads_const _
  | term t => exact reads_bind (reads_term (h t List.mem_cons_self)) fun v => reads_const _

theorem reads_named {fields : List (String × Term)} (h : ∀ t ∈ fields.map Prod.snd, F.term t) :
    F.Reads fun v => namedTexts v fields := by
  refine reads_mapM fun f hf v w hvw => ?_
  exact congrArg (Except.map _) (reads_text (h f.2 (List.mem_map_of_mem hf)) v w hvw)

theorem reads_attributes {fields : List AttributeField}
    (h : ∀ t ∈ fields.map AttributeField.value, F.term t) :
    F.Reads fun v => fields.mapM (AttributeField.eval v) :=
  reads_mapM fun f hf => reads_bind (reads_term (h f.value (List.mem_map_of_mem hf)))
    fun _ => reads_const _

theorem reads_emission {e : Emission} (h : ∀ t ∈ e.terms, F.term t) : F.Reads e.eval := by
  cases e with
  | row table columns =>
    intro v w hvw
    exact congrArg (Except.map _) (reads_named h v w hvw)
  | line values =>
    intro v w hvw
    exact congrArg (Except.map _) (reads_mapM (fun t ht => reads_text (h t ht)) v w hvw)
  | trace process instanceId fields =>
    obtain ⟨hprocess, hinstance, hfields⟩ := List.forall_mem_cons.mp h |>.imp_right
      List.forall_mem_cons.mp
    refine reads_bind (reads_text hprocess) fun process => ?_
    refine reads_bind (reads_text hinstance) fun instanceId => ?_
    exact reads_bind (reads_attributes hfields) fun attributes => reads_const _
  | event process instanceId id fields =>
    obtain ⟨hprocess, hinstance, hrest⟩ := List.forall_mem_cons.mp h |>.imp_right
      List.forall_mem_cons.mp
    have hfields := reads_attributes fun t ht => hrest t (List.mem_append_right _ ht)
    refine reads_bind (reads_text hprocess) fun process => ?_
    refine reads_bind (reads_text hinstance) fun instanceId => ?_
    cases id with
    | none =>
      exact reads_bind (reads_const _) fun id => reads_bind hfields fun attributes => reads_const _
    | some id =>
      have hid : F.Reads fun v => (id.evalText v).map some := fun v w hvw =>
        congrArg (Except.map some) (reads_text (hrest id List.mem_cons_self) v w hvw)
      exact reads_bind hid fun id => reads_bind hfields fun attributes => reads_const _
  | request uri fields =>
    obtain ⟨huri, hfields⟩ := List.forall_mem_cons.mp h
    exact reads_bind (reads_text huri) fun uri =>
      reads_bind (reads_named hfields) fun fields => reads_const _

theorem reads_calls {reads : List ContractRead}
    (h : ∀ t ∈ reads.flatMap fun r => r.inputs.map Argument.term, F.term t) :
    F.Reads fun v => reads.mapM (ContractRead.encodeCall v) := by
  refine reads_mapM fun r hr => reads_bind (reads_mapM fun a ha => ?_) fun values => reads_const _
  refine reads_bind (reads_term (h a.term ?_)) fun v => reads_const _
  exact List.mem_flatMap.mpr ⟨r, hr, List.mem_map_of_mem ha⟩

theorem reads_variables (read : NameMap Value → Except ExecutionError α) :
    F.Reads fun v => read v.variables :=
  fun _ _ h => congrArg read h.1

end Fragment

namespace Run

/-- A property of the steps of a run, those that stage an item apart, that is kept where they are put
together. What is only needed for some filters is asked only if they belong to the fragment. A `look`
is blind to the current transaction, the outputs, the errors and the histories. -/
structure Composes (F : Fragment) (P : ∀ α : Type, Run α → Prop) : Prop where
  pure : ∀ {α : Type} (a : α), P α (pure a)
  raise : ∀ {α : Type} (e : ExecutionError), P α (raise e)
  fail : ∀ context e, P Unit (fail context e)
  view : ∀ {α : Type} {read : View → Except ExecutionError α}, F.Reads read → P α (inView read)
  look : ∀ {α : Type} {f : RunState → Run α},
    (∀ (s : RunState) x o r j d,
      f { s with transaction := x, outputs := o, errors := r, journal := j, deeds := d } = f s) →
      (∀ s, P α (f s)) → P α (get >>= f)
  bind : ∀ {α β : Type} {x : Run α} {f : α → Run β}, P α x → (∀ a, P β (f a)) → P β (x >>= f)
  /-- What succeeds is gone on with, and what fails is handled. -/
  catches : ∀ {α : Type} {x : Run α} {f : Except ExecutionError α → Run Unit} {context : String},
    P α x → (∀ a, P Unit (f (.ok a))) → (∀ e, f (.error e) = report context e) →
      P Unit (outcome x >>= f)
  beginning : ∀ i, P Unit (beginning i)
  note : ∀ i, P History (note i)
  bound : ∀ bindings, P PUnit (modify fun s => s.setVariables bindings)
  attached : ∀ chain, P PUnit (modify fun s => { s with chain := some chain })
  moved : ∀ path, P Unit (Statement.setFolder path)
  exhausted : ∀ {range}, F.filter (.blocks range) → range.last = .continuous → P Unit exhausted
  visitBlock : ∀ {range} {body : Run Unit} b, F.filter (.blocks range) → P Unit body →
    P Unit (Scan.visit body b)
  visitTransaction : ∀ {senders recipients} {body : Run Unit} t,
    F.filter (.transactions senders recipients) → P Unit body → P Unit (TransactionScope.visit body t)
  candidates : ∀ {contracts signature}, F.filter (.logEntries contracts signature) →
    P (List LogEntry) (inView LogEntryScope.candidates)
  visitLogEntry : ∀ {contracts signature} {body : Run Unit} l,
    F.filter (.logEntries contracts signature) → P Unit body → P Unit (LogEntryScope.visit body l)

/-- The property is one of emissions, from their beginning on. -/
def Emits (F : Fragment) (P : ∀ α : Type, Run α → Prop) : Prop :=
  ∀ e : Emission, (∀ t ∈ e.terms, F.term t) → P Unit (do beginning (.emit e); e.execute)

namespace Composes

variable {F : Fragment} {P : ∀ α : Type, Run α → Prop} (hP : Composes F P)
include hP

theorem ofExcept (e : Except ExecutionError α) : P α (ofExcept e) := by
  cases e with
  | ok a => exact hP.pure a
  | error e => exact hP.raise e

theorem guarded (context : String) {x : Run Unit} (hx : P Unit x) : P Unit (guarded context x) :=
  hP.catches hx (fun _ => hP.pure _) fun _ => rfl

theorem source : P ChainSource Run.attached := by
  refine hP.look (fun _ _ _ _ _ _ => rfl) fun s => ?_
  cases s.chain with
  | none => exact hP.raise _
  | some chain => exact hP.pure chain

theorem askHead : P Nat askHead :=
  hP.bind hP.source fun _ => hP.bind (hP.note _) fun _ => hP.ofExcept _

theorem askBlock (number : Nat) : P _ (askBlock number) :=
  hP.bind hP.source fun _ => hP.bind (hP.note _) fun _ => hP.pure _

theorem resolve {b : Bound} (hb : ∀ t ∈ b.terms, F.term t) : P _ b.resolve := by
  have hhead : P _ (some <$> Run.askHead) := hP.bind hP.askHead fun _ => hP.pure _
  cases b with
  | number t =>
    refine hP.bind (hP.view (Fragment.reads_term (hb t List.mem_cons_self))) fun v => ?_
    cases v with
    | null => exact hP.pure _
    | _ => exact hP.bind (hP.ofExcept _) fun _ => hP.pure _
  | earliest => exact hP.pure _
  | current => exact hhead
  | continuous => exact hhead

theorem resolveFirst {b : Bound} (hb : ∀ t ∈ b.terms, F.term t) : P _ b.resolveFirst := by
  refine hP.bind (hP.resolve hb) fun number => ?_
  cases number with
  | none => exact hP.raise _
  | some n => exact hP.pure n

section Bodies
variable {body : Run Unit}

section Scanning
variable (hvisit : ∀ b, P Unit (Scan.visit body b))
include hvisit

theorem scanLook (number : Nat) : P Unit (Scan.look body number) := by
  refine hP.bind (hP.askBlock number) fun answer => ?_
  rcases answer with e | _ | b
  · exact hP.fail _ _
  · exact hP.fail _ _
  · exact hvisit b

theorem walk (number count : Nat) : P Unit (Scan.walk body number count) := by
  induction count generalizing number with
  | zero => exact hP.pure _
  | succ count ih =>
    refine hP.look (fun _ _ _ _ _ _ => rfl) fun s => ?_
    split
    · exact hP.pure _
    · exact hP.bind (hP.scanLook hvisit number) fun _ => ih (number + 1)

theorem sweep (first : Nat) (last : Option Nat) : P Unit (Scan.sweep body first last) := by
  cases last with
  | none => exact hP.pure _
  | some last =>
    rw [Scan.sweep]
    split
    · exact hP.bind (hP.scanLook hvisit first) fun _ => hP.walk hvisit _ _
    · exact hP.pure _

theorem follow (hexhausted : P Unit Run.exhausted) (number looks : Nat) :
    P Unit (Scan.follow body number looks) := by
  induction looks generalizing number with
  | zero => exact hexhausted
  | succ looks ih =>
    refine hP.look (fun _ _ _ _ _ _ => rfl) fun s => ?_
    split
    · exact hP.pure _
    · refine hP.bind (hP.askBlock number) fun answer => ?_
      rcases answer with e | _ | b
      · exact hP.bind (hP.fail _ _) fun _ => ih number
      · exact ih number
      · refine hP.bind (hvisit b) fun _ => ?_
        split
        · exact ih (number + 1)
        · exact hP.pure _

theorem scan (looks : Nat) {range : BlockRange} (hrange : F.filter (.blocks range))
    (hterms : ∀ t ∈ range.first.terms ++ range.last.terms, F.term t) :
    P Unit (Scan.run looks range body) := by
  have hfirst := hP.resolveFirst fun t ht => hterms t (List.mem_append_left _ ht)
  by_cases hlast : range.last = .continuous
  · rw [Scan.run_endless hlast]
    refine hP.bind hfirst fun first => hP.look (fun _ _ _ _ _ _ => rfl) fun s => ?_
    split
    · exact hP.pure _
    · exact hP.follow hvisit (hP.exhausted hrange hlast) first looks
  · rw [Scan.run_bounded hlast]
    refine hP.bind hfirst fun first => hP.look (fun _ _ _ _ _ _ => rfl) fun s => ?_
    split
    · exact hP.pure _
    · refine hP.bind (hP.resolve fun t ht => hterms t (List.mem_append_right _ ht)) fun last => ?_
      exact hP.sweep hvisit first last

end Scanning

theorem transactions (senders recipients : AddressCriterion)
    (hvisit : ∀ t, P Unit (TransactionScope.visit body t)) (ts : List Transaction) :
    P Unit (TransactionScope.visitAll senders recipients body ts) := by
  induction ts with
  | nil => exact hP.pure _
  | cons t ts ih =>
    refine hP.bind (hP.guarded _ ?_) fun _ => ih
    have hpasses : F.Reads (TransactionScope.passes senders recipients t) :=
      Fragment.reads_variables fun m =>
        TransactionScope.passes senders recipients t { «variables» := m }
    refine hP.bind (hP.view hpasses) fun passes => ?_
    split
    · exact hvisit t
    · exact hP.pure _

theorem logEntries (contracts : AddressCriterion) (signature : Option EventSignature)
    (hvisit : ∀ l, P Unit (LogEntryScope.visit body l)) (ls : List LogEntry) :
    P Unit (LogEntryScope.visitAll contracts signature body ls) := by
  induction ls with
  | nil => exact hP.pure _
  | cons l ls ih =>
    have hbind : P Unit (LogEntryScope.bind signature l) := by
      cases signature with
      | none => exact hP.pure _
      | some e => exact hP.bind (hP.ofExcept _) fun bindings => hP.bound bindings
    refine hP.bind (hP.guarded _ ?_) fun _ => ih
    have haccepts : F.Reads fun view => contracts.accepts view.variables (some l.address) :=
      Fragment.reads_variables fun m => contracts.accepts m (some l.address)
    refine hP.bind (hP.view haccepts) fun accepted => ?_
    split
    · split
      · exact hP.bind hbind fun _ => hvisit l
      · exact hP.pure _
    · exact hP.pure _

theorem calls (chain : ChainSource) (contract : String) (block : Option Nat)
    (calls : List (ContractRead × List UInt8)) :
    P _ (ContractScope.callAll chain contract block calls) := by
  induction calls with
  | nil => exact hP.pure _
  | cons call calls ih =>
    exact hP.bind (hP.note _) fun before => hP.bind ih fun results => hP.pure _

variable (hbody : P Unit body)
include hbody

theorem contract {address : Term} {reads : List ContractRead}
    (hterms : ∀ t ∈ (Filter.contract address reads).terms, F.term t) :
    P Unit (ContractScope.run address reads body) := by
  obtain ⟨haddress, hinputs⟩ := List.forall_mem_cons.mp hterms
  have htext : F.Reads (ContractScope.contractText address) :=
    Fragment.reads_bind (Fragment.reads_term haddress) fun _ => Fragment.reads_const _
  refine hP.bind (hP.view htext) fun contract => ?_
  refine hP.catches (hP.view (Fragment.reads_calls hinputs)) (fun data => ?_) fun _ => rfl
  refine hP.bind hP.source fun chain => ?_
  refine hP.look (fun _ _ _ _ _ _ => rfl) fun s => ?_
  refine hP.bind (hP.calls _ _ _ _) fun results => ?_
  cases results.mapM id with
  | error e => exact hP.fail _ _
  | ok bindings => exact hP.bind (hP.bound bindings.flatten) fun _ => hbody

theorem filter (looks : Nat) {f : Filter} (hf : F.filter f) (hterms : ∀ t ∈ f.terms, F.term t) :
    P Unit (f.run looks body) := by
  cases f with
  | blocks range => exact hP.scan (fun b => hP.visitBlock b hf hbody) looks hf hterms
  | transactions senders recipients =>
    refine hP.look (fun _ _ _ _ _ _ => rfl) fun s => ?_
    cases s.block with
    | none => exact hP.raise _
    | some b =>
      exact hP.transactions senders recipients (fun t => hP.visitTransaction t hf hbody) b.transactions
  | logEntries contracts signature =>
    refine hP.bind (hP.candidates hf) fun ls => ?_
    exact hP.logEntries contracts signature (fun l => hP.visitLogEntry l hf hbody) ls
  | contract address reads => exact hP.contract hbody hterms
  | condition predicate =>
    refine hP.bind (hP.view (Fragment.reads_predicate hterms)) fun holds => ?_
    split
    · exact hbody
    · exact hP.pure _

end Bodies

theorem write (target : Target) (v : Value) : P Unit (Statement.write target v) :=
  hP.bound [(target.name, v)]

theorem assign (target : Target) {value : Term} (hvalue : F.term value) :
    P Unit (Statement.assign target value) :=
  hP.bind (hP.view (Fragment.reads_term hvalue)) fun v => hP.write target v

theorem call (method : Builtin) {args : List Term} (target : Option Target)
    (hargs : ∀ t ∈ args, F.term t) : P Unit (Statement.call method args target) := by
  refine hP.bind (hP.view (Fragment.reads_mapM fun t ht => Fragment.reads_term (hargs t ht)))
    fun values => ?_
  refine hP.bind (hP.ofExcept _) fun result => ?_
  cases target with
  | none => exact hP.pure _
  | some target => exact hP.write target result

theorem connect (url : String) : P Unit (Statement.connect url) := by
  refine hP.look (fun _ _ _ _ _ _ => rfl) fun s => ?_
  cases s.connector with
  | none => exact hP.bind hP.source fun _ => hP.pure _
  | some connector =>
    refine hP.bind (hP.note _) fun before => ?_
    exact hP.bind (hP.ofExcept _) fun chain => hP.attached chain

mutual

/-- The property is one of every instruction of the fragment, from its beginning on. -/
theorem step (hemits : Emits F P) (looks : Nat) {i : Instruction} (hi : i.Within F) :
    P Unit (do Run.beginning i; i.execute looks) := by
  cases i with
  | sequence body =>
    rw [Instruction.execute]
    rw [Instruction.Within] at hi
    exact hP.bind (hP.beginning _) fun _ => executeAll hemits looks hi
  | filter f body =>
    rw [Instruction.execute]
    rw [Instruction.Within] at hi
    refine hP.bind (hP.beginning _) fun _ => ?_
    exact hP.filter (executeAll hemits looks hi.2.2) looks hi.1 hi.2.1
  | assign target value =>
    rw [Instruction.execute]
    exact hP.bind (hP.beginning _) fun _ => hP.assign target hi
  | call method args target =>
    rw [Instruction.execute]
    exact hP.bind (hP.beginning _) fun _ => hP.call method target hi
  | emit e =>
    rw [Instruction.execute]
    exact hemits e hi
  | setFolder path =>
    rw [Instruction.execute]
    exact hP.bind (hP.beginning _) fun _ => hP.moved path
  | connect url =>
    rw [Instruction.execute]
    exact hP.bind (hP.beginning _) fun _ => hP.connect url

theorem executeAll (hemits : Emits F P) (looks : Nat) {is : List Instruction}
    (his : Instruction.WithinAll F is) : P Unit (ChainQuery.executeAll looks is) := by
  cases is with
  | nil =>
    rw [ChainQuery.executeAll]
    exact hP.pure _
  | cons i is =>
    rw [ChainQuery.executeAll, ← bind_assoc]
    rw [Instruction.WithinAll] at his
    exact hP.bind (step hemits looks his.1) fun _ => executeAll hemits looks his.2

end

theorem executeEach (hemits : Emits F P) (looks : Nat) {is : List Instruction}
    (his : Instruction.WithinAll F is) : P Unit (Program.executeEach looks is) := by
  induction is with
  | nil => exact hP.pure _
  | cons i is ih =>
    rw [Instruction.WithinAll] at his
    exact hP.bind (hP.guarded _ (hP.step hemits looks his.1)) fun _ => ih his.2

end Composes

/-- A property that composes and that the steps have which stage an item. -/
structure Inherits (F : Fragment) (P : ∀ α : Type, Run α → Prop) : Prop extends Composes F P where
  staged : ∀ item, P Unit (Emission.stage item)

namespace Inherits

variable {F : Fragment} {P : ∀ α : Type, Run α → Prop} (hP : Inherits F P)
include hP

theorem emission {e : Emission} (he : ∀ t ∈ e.terms, F.term t) : P Unit e.execute :=
  hP.bind (hP.view (Fragment.reads_emission he)) fun item => hP.staged item

theorem emits : Emits F P :=
  fun _ he => hP.bind (hP.beginning _) fun _ => hP.emission he

theorem executeAll (looks : Nat) {is : List Instruction} (his : Instruction.WithinAll F is) :
    P Unit (ChainQuery.executeAll looks is) :=
  hP.toComposes.executeAll hP.emits looks his

/-- What is inherited holds of every instruction of the fragment. -/
theorem execute (looks : Nat) {i : Instruction} (hi : i.Within F) : P Unit (i.execute looks) := by
  cases i with
  | sequence body =>
    rw [Instruction.execute]
    rw [Instruction.Within] at hi
    exact hP.executeAll looks hi
  | filter f body =>
    rw [Instruction.execute]
    rw [Instruction.Within] at hi
    exact hP.filter (hP.executeAll looks hi.2.2) looks hi.1 hi.2.1
  | assign target value =>
    rw [Instruction.execute]
    exact hP.assign target hi
  | call method args target =>
    rw [Instruction.execute]
    exact hP.call method target hi
  | emit e =>
    rw [Instruction.execute]
    exact hP.emission hi
  | setFolder path =>
    rw [Instruction.execute]
    exact hP.moved path
  | connect url =>
    rw [Instruction.execute]
    exact hP.connect url

theorem executeEach (looks : Nat) {is : List Instruction} (his : Instruction.WithinAll F is) :
    P Unit (Program.executeEach looks is) :=
  hP.toComposes.executeEach hP.emits looks his

end Inherits

/-- A property of the steps of a run that is kept where they are put together. Only what stages an
item or makes folders, ends a visit or handles a failure looks at the outputs or the errors. -/
structure Hereditary (P : ∀ α : Type, Run α → Prop) : Prop where
  pure : ∀ {α : Type} (a : α), P α (pure a)
  exhausted : ∀ {α : Type}, P α exhausted
  raise : ∀ {α : Type} (e : ExecutionError), P α (raise e)
  fail : ∀ context e, P Unit (fail context e)
  look : ∀ {α : Type} {f : RunState → Run α},
    (∀ (s : RunState) o r, f { s with outputs := o, errors := r } = f s) → (∀ s, P α (f s)) →
      P α (get >>= f)
  bind : ∀ {α β : Type} {x : Run α} {f : α → Run β}, P α x → (∀ a, P β (f a)) → P β (x >>= f)
  /-- What succeeds is gone on with, and what fails is handled. -/
  catches : ∀ {α : Type} {x : Run α} {f : Except ExecutionError α → Run Unit} {context : String},
    P α x → (∀ a, P Unit (f (.ok a))) → (∀ e, f (.error e) = report context e) →
      P Unit (outcome x >>= f)
  beginning : ∀ i, P Unit (beginning i)
  note : ∀ i, P History (note i)
  bound : ∀ bindings, P PUnit (modify fun s => s.setVariables bindings)
  attached : ∀ chain, P PUnit (modify fun s => { s with chain := some chain })
  staged : ∀ item, P Unit (Emission.stage item)
  moved : ∀ path, P Unit (Statement.setFolder path)
  visitBlock : ∀ {body : Run Unit} (b : Block), P Unit body → P Unit (Scan.visit body b)
  visit : ∀ {body : Run Unit} (e : Element), e.cursor ≠ .block → P Unit body →
    P Unit (do resume (← visiting e body))

namespace Hereditary

variable {P : ∀ α : Type, Run α → Prop} (hP : Hereditary P)
include hP

theorem inView (read : View → Except ExecutionError α) : P α (inView read) := by
  refine hP.look (fun _ _ _ => rfl) fun s => ?_
  cases read s.toView with
  | ok a => exact hP.pure a
  | error e => exact hP.raise e

/-- What is hereditary is inherited by all programs. -/
theorem inherits : Inherits .all P where
  pure := hP.pure
  raise := hP.raise
  fail := hP.fail
  view _ := hP.inView _
  look hblind hf := hP.look (fun s o r => hblind s s.transaction o r s.journal s.deeds) hf
  bind := hP.bind
  catches := hP.catches
  beginning := hP.beginning
  note := hP.note
  bound := hP.bound
  attached := hP.attached
  staged := hP.staged
  moved := hP.moved
  exhausted _ _ := hP.exhausted
  visitBlock b _ hbody := hP.visitBlock b hbody
  visitTransaction t _ hbody := hP.visit (.transaction t) t.cursor_ne_block hbody
  candidates _ := hP.inView _
  visitLogEntry l _ hbody := hP.visit (.logEntry l) l.cursor_ne_block hbody

theorem execute (looks : Nat) (i : Instruction) : P Unit (i.execute looks) :=
  hP.inherits.execute looks i.within_all

theorem executeEach (looks : Nat) (is : List Instruction) :
    P Unit (Program.executeEach looks is) :=
  hP.inherits.executeEach looks (Instruction.withinAll_all is)

end Hereditary
end Run
end ChainQuery
