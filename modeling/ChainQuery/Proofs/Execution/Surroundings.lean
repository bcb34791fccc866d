import ChainQuery.Proofs.Execution.Enclosures
import ChainQuery.Proofs.Failures.Handling

/-!
# What is current when an instruction begins

A run nests its visits as its filters are nested, and visits the transactions of the block that is
current. So the visits around an instruction tell what is current when it begins, and which log
entries a filter would look at.
-/

namespace ChainQuery

namespace RunState

/-- Of the blocks around, only the innermost one can be current. -/
def Inside (s : RunState) (around : List Element) : Prop :=
  ∀ b, s.block = some b → around.find? (fun o => o.cursor = .block) = some (.block b)

/-- A run inside the visits of elements makes closed visits between two states. -/
def VisitsWithin (around : List Element) (s t : RunState) : Prop :=
  s.Inside around → ∃ j, Within around j ∧ s.Leads j t

variable {around : List Element} {s t : RunState}

theorem Inside.leads {j : Journal} (h : s.Inside around) (hleads : s.Leads j t) :
    t.Inside around := by
  intro b hb
  have hblock := hleads.current .block
  rw [show t.current .block = some (.block b) from congrArg (Option.map Element.block) hb] at hblock
  split at hblock
  · cases hblock
  · obtain ⟨b', hb', heq⟩ := Option.map_eq_some_iff.mp hblock.symm
    cases heq
    exact h b hb'

theorem Inside.enter (h : s.Inside around) (e : Element) : (s.enter e).Inside (e :: around) := by
  intro b hb
  cases e with
  | block b' =>
    cases hb
    rfl
  | transaction x => exact h b hb
  | logEntry l => exact h b hb

theorem VisitsWithin.visit {e : Element} (hbelongs : e.BelongsTo around)
    (h : (s.enter e).VisitsWithin (e :: around) t) (failure : Option ExecutionError) :
    s.VisitsWithin around (t.exit e.cursor failure) := by
  intro hinside
  obtain ⟨j, hj, hleads⟩ := h (hinside.enter e)
  exact ⟨_, .visit failure hbelongs hj, hleads.visit failure⟩

theorem leaves_visitsWithin (around : List Element) :
    LeafLaws fun s t => VisitsWithin around s t where
  chains := by
    constructor
    · intro s t h _
      exact ⟨[], .nil, leads_nil h⟩
    · intro s t u hst htu hinside
      obtain ⟨j, hj, hleads⟩ := hst hinside
      obtain ⟨k, hk, hleads'⟩ := htu (hinside.leads hleads)
      exact ⟨j ++ k, hj.append hk, hleads.append hleads'⟩
  staged := by
    intro s item o hstage _
    have haccepts : s.outputs.Accepts [.staged item] := by
      refine ⟨fun _ => ?_, trivial⟩
      rw [Outputs.follow, hstage]
    exact ⟨_, .single rfl, leads_perform (fun _ => rfl) haccepts⟩
  moved := by
    intro s path _
    have haccepts : s.outputs.Accepts [.moved path] := by
      apply Outputs.accepts_singleton
      intro item heq
      cases heq
    exact ⟨_, .single rfl, leads_perform (fun _ => rfl) haccepts⟩

/-- A body may run inside any visits. -/
def VisitsAnywhere (s t : RunState) : Prop :=
  ∀ around, s.VisitsWithin around t

end RunState

theorem Element.belongsTo_of_cursor {e : Element} (h : e.cursor ≠ .transaction)
    (around : List Element) : e.BelongsTo around := by
  rintro x rfl
  exact absurd rfl h

theorem Filter.keeps_visitsWithin {body : Run Unit}
    (hbody : Run.Keeps RunState.VisitsAnywhere body) (around : List Element) (looks : Nat)
    (f : Filter) : Run.Keeps (RunState.VisitsWithin around) (f.run looks body) := by
  have hchains := (RunState.leaves_visitsWithin around).chains
  by_cases hf : f.cursor? = some .transaction
  · cases f with
    | transactions senders recipients =>
      intro s result t h hinside
      rw [Filter.run, TransactionScope.run, Run.run_get_bind] at h
      cases hblock : s.block with
      | none =>
        rw [hblock] at h
        exact Run.keeps_raise hchains _ s result t h hinside
      | some b =>
        rw [hblock] at h
        -- the visited transactions are those of the current block
        refine TransactionScope.keeps_visitAll hchains hbody senders recipients b.transactions
          (fun x hx s t failure ht => ?_) s result t h hinside
        refine RunState.VisitsWithin.visit ?_ (ht _) failure
        intro y hy
        cases hy
        exact ⟨b, hinside b hblock, hx⟩
    | _ => cases hf
  · refine f.keeps_run hchains hbody looks ?_ fun _ s t h => h around
    intro e he s t failure h
    refine RunState.VisitsWithin.visit (Element.belongsTo_of_cursor ?_ around) (h _) failure
    intro hc
    rw [he, hc] at hf
    exact hf rfl

mutual

theorem Instruction.keeps_visitsAnywhere (looks : Nat) (i : Instruction) :
    Run.Keeps RunState.VisitsAnywhere (i.execute looks) := by
  intro s result t h around
  have hleaves := RunState.leaves_visitsWithin around
  cases i with
  | sequence body =>
    rw [Instruction.execute] at h
    exact keeps_visitsAnywhere looks body s result t h around
  | filter f body =>
    rw [Instruction.execute] at h
    exact f.keeps_visitsWithin (keeps_visitsAnywhere looks body) around looks s result t h
  | assign target value =>
    rw [Instruction.execute] at h
    exact Statement.keeps_assign hleaves target value s result t h
  | call method args target =>
    rw [Instruction.execute] at h
    exact Statement.keeps_call hleaves method args target s result t h
  | emit e =>
    rw [Instruction.execute] at h
    exact e.keeps_execute hleaves s result t h
  | setFolder path =>
    rw [Instruction.execute] at h
    exact Statement.keeps_setFolder hleaves path s result t h
  | connect url =>
    rw [Instruction.execute] at h
    exact Statement.keeps_connect hleaves url s result t h

theorem keeps_visitsAnywhere (looks : Nat) (is : List Instruction) :
    Run.Keeps RunState.VisitsAnywhere (executeAll looks is) := by
  intro s result t h around
  have hleaves := RunState.leaves_visitsWithin around
  cases is with
  | nil =>
    rw [executeAll] at h
    exact Run.keeps_pure hleaves.chains _ s result t h
  | cons i is =>
    rw [executeAll] at h
    refine Run.keeps_bind hleaves.chains (keeps_beginning hleaves i) (fun _ => ?_) s result t h
    refine Run.keeps_bind hleaves.chains (fun s result t h => ?_) fun _ s result t h => ?_
    · exact Instruction.keeps_visitsAnywhere looks i s result t h around
    · exact keeps_visitsAnywhere looks is s result t h around

end

theorem Program.keeps_visitsWithin (looks : Nat) (around : List Element) (is : List Instruction) :
    Run.Keeps (RunState.VisitsWithin around) (Program.executeEach looks is) := by
  have hleaves := RunState.leaves_visitsWithin around
  induction is with
  | nil => exact Run.keeps_pure hleaves.chains _
  | cons i is ih =>
    refine Run.keeps_bind hleaves.chains (Run.keeps_guarded hleaves.chains _ ?_) fun _ => ih
    refine Run.keeps_bind hleaves.chains (keeps_beginning hleaves i) fun _ s result t h => ?_
    exact i.keeps_visitsAnywhere looks s result t h around

/-- A whole run makes closed visits, and closes the outputs. -/
theorem Program.within_of_run {looks : Nat} {p : Program} {s t : RunState}
    {result : Except ExecutionError Unit} (hblock : s.block = none)
    (hrun : p.run? looks s = some (result, t)) :
    ∃ j, Within [] j ∧ t.journal = s.journal ++ j := by
  have hinside : s.Inside [] := by
    intro b hb
    cases hblock.symm.trans hb
  have hclosed : ∀ u result', (Program.executeEach looks p.instructions).run s = some (result', u) →
      ∀ failure, ∃ j, Within [] j ∧ u.journal ++ [.closed failure] = s.journal ++ j := by
    intro u result' hu failure
    obtain ⟨j, hj, hleads⟩ := Program.keeps_visitsWithin looks [] _ s result' u hu hinside
    exact ⟨j ++ [.closed failure], hj.append (.single rfl), by rw [hleads.journal, List.append_assoc]⟩
  rcases Program.run_cases hrun with ⟨u, hu, ⟨-, -, rfl⟩ | ⟨w, -, -, rfl⟩⟩ | ⟨u, fatal, hu, -, rfl⟩
  · exact hclosed u _ hu none
  · exact hclosed u _ hu none
  · exact hclosed u _ hu (some fatal)

def View.current (view : View) : Cursor → Option Element
  | .block => view.block.map .block
  | .transaction => view.transaction.map .transaction
  | .logEntry => view.logEntry.map .logEntry

theorem RunState.current_toView (s : RunState) : s.toView.current = s.current := by
  funext c
  cases c <;> rfl

namespace Deed

def journal (deeds : List Deed) : Journal :=
  (deeds.filterMap entry?).reverse

theorem journal_cons (d : Deed) (deeds : List Deed) :
    journal (d :: deeds) = journal deeds ++ d.entry?.toList := by
  rw [journal, List.filterMap_cons]
  cases d.entry? with
  | none => exact (List.append_nil _).symm
  | some _ => exact List.reverse_cons

theorem journal_append (later earlier : List Deed) :
    journal (later ++ earlier) = journal earlier ++ journal later := by
  rw [journal, List.filterMap_append, List.reverse_append]
  rfl

end Deed

/-- A move is a deed that the cursors follow, and an instruction that begins sees the state. -/
theorem Move.views {f g : Flight} {s t : RunState} (hmove : Move f s g t) :
    (t.deeds = s.deeds ∧ t.current = s.current) ∨
      ∃ d, t.deeds = d :: s.deeds ∧ t.current = Journal.pointed d.entry?.toList s.current ∧
        ∀ i view, d = .began i view → view = s.toView := by
  have hsame : ∀ u : RunState, u.block = s.block → u.transaction = s.transaction →
      u.logEntry = s.logEntry → u.current = s.current := by
    intro u hblock htransaction hlogEntry
    funext c
    cases c with
    | block => exact congrArg (Option.map Element.block) hblock
    | transaction => exact congrArg (Option.map Element.transaction) htransaction
    | logEntry => exact congrArg (Option.map Element.logEntry) hlogEntry
  cases hmove with
  | began i =>
    refine .inr ⟨_, rfl, hsame _ rfl rfl rfl, ?_⟩
    intro i' view h
    cases h
    rfl
  | attached chain => exact .inl ⟨rfl, hsame _ rfl rfl rfl⟩
  | entered e =>
    refine .inr ⟨.noted (.entered e), ?_, ?_, nofun⟩
    · cases e <;> rfl
    · funext c
      cases e <;> cases c <;> rfl
  | left k =>
    refine .inr ⟨.noted (.left k f.failure?), ?_, ?_, nofun⟩
    · cases k <;> rfl
    · funext c
      cases k <;> cases c <;> rfl
  | recorded context e hgoing =>
    refine .inr ⟨.recorded context e (s.errors.ends e), ?_, hsame _ rfl rfl rfl, nofun⟩
    show ite _ _ _ :: _ = _
    rw [hgoing]
    rfl
  | passed context e haborting =>
    refine .inr ⟨.passed context e, ?_, hsame _ rfl rfl rfl, nofun⟩
    show ite _ _ _ :: _ = _
    rw [haborting]
    rfl
  | _ => exact .inr ⟨_, rfl, hsame _ rfl rfl rfl, nofun⟩

/-- What an instruction sees when it begins is what the journal up to then points at. -/
theorem Path.views {f g : Flight} {s t : RunState} (hpath : Path f s g t) (hs : s.deeds = []) :
    t.current = (Deed.journal t.deeds).pointed s.current ∧
      ∀ later i view earlier, t.deeds = later ++ .began i view :: earlier →
        view.current = (Deed.journal earlier).pointed s.current := by
  induction hpath with
  | refl =>
    rw [hs]
    refine ⟨rfl, ?_⟩
    intro later i view earlier h
    cases later <;> cases h
  | step _ hmove ih =>
    obtain ⟨hcurrent, hviews⟩ := ih hs
    obtain ⟨hdeeds, hsame⟩ | ⟨d, hdeeds, hnext, hbegan⟩ := hmove.views
    · rw [hdeeds, hsame]
      exact ⟨hcurrent, hviews⟩
    · rw [hdeeds, Deed.journal_cons, Journal.pointed_append, hnext, hcurrent]
      refine ⟨rfl, ?_⟩
      intro later i view earlier h
      cases later with
      | nil =>
        obtain ⟨rfl, rfl⟩ := List.cons.inj h
        rw [hbegan i view rfl, RunState.current_toView, hcurrent]
      | cons d' later => exact hviews later i view earlier (List.cons.inj h).2

namespace Enclosure

variable {scopes : List Enclosure}

theorem Sound.of_append {inner : List Enclosure} (h : Sound (inner ++ scopes)) : Sound scopes := by
  induction inner with
  | nil => exact h
  | cons s inner ih =>
    cases h with
    | cons _ _ hrest => exact ih hrest

theorem Sound.since {inner : List Enclosure} (h : Sound (inner ++ scopes)) :
    ∀ i ∈ inner, ∀ o ∈ scopes, o.since.visits i.element.cursor = true := by
  induction inner with
  | nil => exact nofun
  | cons s inner ih =>
    cases h with
    | cons _ hinside hrest =>
      intro i hi o ho
      obtain rfl | hi := List.mem_cons.mp hi
      · exact hinside o (List.mem_append_right inner ho)
      · exact ih hrest i hi o ho

theorem innermost_eq_some {c : Cursor} {s : Enclosure} (h : innermost? c scopes = some s) :
    s.element.cursor = c ∧ ∃ inner outer, scopes = inner ++ s :: outer := by
  obtain ⟨hkind, inner, outer, hsplit, -⟩ := List.find?_eq_some_iff_append.mp h
  exact ⟨by simpa using hkind, inner, outer, hsplit⟩

theorem current_eq_some {c : Cursor} {e : Element} :
    current? scopes c = some e ↔
      ∃ s, innermost? c scopes = some s ∧ s.overtaken = false ∧ s.element = e := by
  rw [current?, Option.bind_eq_some_iff]
  refine exists_congr fun s => and_congr_right fun _ => ?_
  cases s.overtaken <;> simp

/-- A visit that has not been overtaken is the innermost of its kind. -/
theorem Sound.innermost {inner outer : List Enclosure} {s : Enclosure}
    (h : Sound (inner ++ s :: outer)) (hlast : s.overtaken = false) :
    innermost? s.element.cursor (inner ++ s :: outer) = some s := by
  have hother : ∀ i ∈ inner, i.element.cursor ≠ s.element.cursor := by
    intro i hi hkind
    have hvisits := h.since i hi s List.mem_cons_self
    rw [hkind] at hvisits
    cases hvisits.symm.trans hlast
  rw [innermost?, List.find?_append, List.find?_eq_none.mpr (by simpa using hother)]
  simp

/-- The transaction of an open visit is one of the innermost block around it. -/
theorem Sound.block_of_transaction {s : Enclosure} {x : Transaction} (h : Sound (s :: scopes))
    (hx : s.element = .transaction x) :
    ∃ around b, innermost? .block scopes = some around ∧ around.element = .block b ∧
      x ∈ b.transactions := by
  cases h with
  | cons hbelongs _ _ =>
    obtain ⟨b, hfind, hmem⟩ := hbelongs x hx
    rw [List.find?_map] at hfind
    obtain ⟨around, haround, hb⟩ := Option.map_eq_some_iff.mp hfind
    exact ⟨around, b, haround, hb, hmem⟩

end Enclosure

def Element.logs : Element → List LogEntry
  | block b => b.logs
  | transaction x => x.logs
  | logEntry _ => []

/-- The innermost block or transaction among open visits. -/
def Enclosure.logScope? (scopes : List Enclosure) : Option Enclosure :=
  scopes.find? fun s => s.element.cursor ≠ .logEntry

namespace Enclosure
variable {scopes : List Enclosure} {view : View} (h : Tells scopes view.current)
include h

/-- A current transaction belongs to the innermost block around it, which is current as well unless
another block has been visited inside. -/
theorem Tells.transaction {x : Transaction} (hx : view.transaction = some x) :
    ∃ inner scope outer around b, scopes = inner ++ scope :: outer ∧
      innermost? .transaction scopes = some scope ∧ scope.element = .transaction x ∧
      innermost? .block outer = some around ∧ around.element = .block b ∧ x ∈ b.transactions ∧
      (around.overtaken = false → view.block = some b) := by
  have hcurrent : current? scopes .transaction = some (.transaction x) := by
    rw [h.current]
    exact congrArg (Option.map Element.transaction) hx
  obtain ⟨scope, hscope, -, helement⟩ := current_eq_some.mp hcurrent
  obtain ⟨-, inner, outer, rfl⟩ := innermost_eq_some hscope
  obtain ⟨around, b, haround, hb, hmem⟩ := h.sound.of_append.block_of_transaction helement
  refine ⟨inner, scope, outer, around, b, rfl, hscope, helement, haround, hb, hmem, ?_⟩
  intro hlast
  obtain ⟨hkind, middle, rest, rfl⟩ := innermost_eq_some haround
  have hsplit : inner ++ scope :: (middle ++ around :: rest) =
      (inner ++ scope :: middle) ++ around :: rest := by simp
  have hinnermost := (hsplit ▸ h.sound).innermost hlast
  rw [← hsplit, hkind] at hinnermost
  have hblock : view.current .block = some (.block b) := by
    rw [← h.current]
    exact current_eq_some.mpr ⟨around, hinnermost, hlast, hb⟩
  obtain ⟨b', hb', heq⟩ := Option.map_eq_some_iff.mp hblock
  cases heq
  exact hb'

/-- A filter looks at the log entries of the innermost block or transaction around, unless another
element of its kind was visited inside, or it is a block and a transaction is current. -/
theorem Tells.candidates {scope : Enclosure} (hscope : logScope? scopes = some scope)
    (hlast : scope.overtaken = false) :
    LogEntryScope.candidates view =
      .ok ((view.transaction.map Transaction.logs).getD scope.element.logs) := by
  obtain ⟨hkind, inner, outer, rfl, -⟩ := List.find?_eq_some_iff_append.mp hscope
  have hcurrent : view.current scope.element.cursor = some scope.element := by
    rw [← h.current]
    exact current_eq_some.mpr ⟨scope, h.sound.innermost hlast, hlast, rfl⟩
  cases helement : scope.element with
  | logEntry l =>
    rw [helement] at hkind
    cases hkind
  | transaction x =>
    rw [helement] at hcurrent
    obtain ⟨x', hx', heq⟩ := Option.map_eq_some_iff.mp hcurrent
    cases heq
    rw [LogEntryScope.candidates, hx']
    rfl
  | block b =>
    rw [helement] at hcurrent
    obtain ⟨b', hb', heq⟩ := Option.map_eq_some_iff.mp hcurrent
    cases heq
    rw [LogEntryScope.candidates, hb']
    cases view.transaction <;> rfl

end Enclosure

/-- Whenever an instruction begins, the current element of a kind is that of the innermost visit of
the kind around it, unless another element of the kind was visited inside. So a current transaction
belongs to the innermost block around its visit, and that block is current unless another one was
visited inside. And the log entries that a filter would look at are those of the innermost block or
transaction around it, unless another element of its kind was visited inside, or those of the current
transaction, which goes before a block inside its visit. -/
theorem cursors_of_surroundings {looks : Nat} {p : Program} {s t : RunState}
    {result : Except ExecutionError Unit} (hs : s.Unspoilt) (hcursors : ∀ c, s.current c = none)
    (hrun : p.run? looks s = some (result, t)) {later earlier : List Deed} {i : Instruction}
    {view : View} (hdeeds : t.deeds = later ++ .began i view :: earlier) :
    let scopes := (Deed.journal earlier).enclosing
    (∀ c, view.current c = Enclosure.current? scopes c) ∧
    (∀ x, view.transaction = some x →
      ∃ inner scope outer around b, scopes = inner ++ scope :: outer ∧
        Enclosure.innermost? .transaction scopes = some scope ∧ scope.element = .transaction x ∧
        Enclosure.innermost? .block outer = some around ∧ around.element = .block b ∧
        x ∈ b.transactions ∧ (around.overtaken = false → view.block = some b)) ∧
    ∀ scope, Enclosure.logScope? scopes = some scope → scope.overtaken = false →
      LogEntryScope.candidates view =
        .ok ((view.transaction.map Transaction.logs).getD scope.element.logs) := by
  intro scopes
  have haborting : s.errors.aborting = false := by rw [hs.errors]
  obtain ⟨f, hpath, -⟩ := Program.travels_run haborting hrun
  obtain ⟨-, hviews⟩ := hpath.views hs.deeds
  have hblock : s.block = none := Option.map_eq_none_iff.mp (hcursors .block)
  obtain ⟨j, hwithin, hjournal⟩ := Program.within_of_run hblock hrun
  have hprefix : Deed.journal earlier <+: j := by
    have hrecounts := (hpath.story hs).1.journal
    rw [hjournal] at hrecounts
    rw [List.append_cancel_left hrecounts]
    show _ <+: Deed.journal t.deeds
    rw [hdeeds, Deed.journal_append, Deed.journal_cons, List.append_assoc]
    exact List.prefix_append _ _
  have hstart : Enclosure.Tells [] s.current := ⟨.nil, fun c => (hcursors c).symm⟩
  have htells : Enclosure.Tells scopes view.current := by
    rw [hviews later i view earlier hdeeds]
    exact (hwithin.tells _ _ hstart rfl).2 _ hprefix
  exact ⟨fun c => (htells.current c).symm, fun x hx => htells.transaction hx,
    fun scope hscope hlast => htells.candidates hscope hlast⟩

def firstOfTwo : Block := { number := 1, transactions := [{}] }

def secondOfTwo : Block := { number := 2, transactions := [{ logs := [{}] }] }

def ChainSource.double : ChainSource where
  head := fun _ => .ok 2
  block := fun _ number =>
    .ok (if number = 1 then some firstOfTwo else if number = 2 then some secondOfTwo else none)
  call := fun _ _ _ _ => .error .notConnected

def scanOf (number : Int) (body : List Instruction) : Instruction :=
  .filter (.blocks ⟨.number (.literal (.int number)), .number (.literal (.int number))⟩) body

/-- The second block is visited for the transaction of the first one. -/
def crossedScans : Program :=
  ⟨[scanOf 1 [.filter (.transactions .any .any) [scanOf 2 [.filter (.logEntries .any none) []]]]]⟩

def crossedStart : RunState :=
  { RunState.start {} {} {} with chain := some .double }

def crossedEnd : RunState :=
  ((crossedScans.run? 0 crossedStart).map Prod.snd).getD default

theorem run_crossedScans : crossedScans.run? 0 crossedStart = some (.ok (), crossedEnd) := rfl

theorem cursors_crossedStart (c : Cursor) : crossedStart.current c = none := by
  cases c <;> rfl

theorem began_crossedScans : ∃ view earlier,
    crossedEnd.deeds =
      crossedEnd.deeds.take 4 ++ .began (.filter (.logEntries .any none) []) view :: earlier ∧
    view.block = some secondOfTwo ∧ view.transaction = some {} ∧
    Enclosure.logScope? (Deed.journal earlier).enclosing = some ⟨.block secondOfTwo, []⟩ :=
  ⟨_, _, rfl, rfl, rfl, rfl⟩

/-- The second block is current and the first one's transaction goes before it. -/
theorem candidates_crossedScans : ∃ later view earlier,
    crossedEnd.deeds = later ++ .began (.filter (.logEntries .any none) []) view :: earlier ∧
    LogEntryScope.candidates view = .ok [] := by
  obtain ⟨view, earlier, hdeeds, -, htransaction, hscope⟩ := began_crossedScans
  obtain ⟨-, -, hcandidates⟩ :=
    cursors_of_surroundings ⟨rfl, rfl⟩ cursors_crossedStart run_crossedScans hdeeds
  refine ⟨_, view, earlier, hdeeds, ?_⟩
  rw [hcandidates _ hscope rfl, htransaction]
  rfl

/-- A current transaction need not belong to the current block, and the innermost scope need not give
the log entries. -/
theorem crossedScans_inconsistent :
    (¬ ∀ (looks : Nat) (p : Program) (s t : RunState) (result : Except ExecutionError Unit),
      s.Unspoilt → (∀ c, s.current c = none) → p.run? looks s = some (result, t) →
      ∀ later i view earlier, t.deeds = later ++ .began i view :: earlier →
        ∀ x, view.transaction = some x → ∃ b, view.block = some b ∧ x ∈ b.transactions) ∧
    ¬ ∀ (looks : Nat) (p : Program) (s t : RunState) (result : Except ExecutionError Unit),
      s.Unspoilt → (∀ c, s.current c = none) → p.run? looks s = some (result, t) →
      ∀ later i view earlier, t.deeds = later ++ .began i view :: earlier →
        ∀ scope, Enclosure.logScope? (Deed.journal earlier).enclosing = some scope →
          LogEntryScope.candidates view = .ok scope.element.logs := by
  obtain ⟨view, earlier, hdeeds, hblock, htransaction, hscope⟩ := began_crossedScans
  constructor
  · intro h
    obtain ⟨b, hb, hmem⟩ := h 0 crossedScans crossedStart crossedEnd _ ⟨rfl, rfl⟩
      cursors_crossedStart run_crossedScans _ _ view earlier hdeeds {} htransaction
    obtain rfl := Option.some.inj (hblock.symm.trans hb)
    simp [secondOfTwo] at hmem
  · intro h
    have hlogs := h 0 crossedScans crossedStart crossedEnd _ ⟨rfl, rfl⟩ cursors_crossedStart
      run_crossedScans _ _ view earlier hdeeds _ hscope
    rw [LogEntryScope.candidates, htransaction] at hlogs
    cases hlogs

end ChainQuery
