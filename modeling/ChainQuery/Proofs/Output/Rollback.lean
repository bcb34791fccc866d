import ChainQuery.Proofs.Output.Stages

/-!
# Discarding a block

A block that is discarded leaves the writers as they were before it, but for one thing: a table whose
first row was staged in the block keeps the columns of that row. So what is done later goes as
without the block exactly when the next row of each such table has the same columns again.
-/

namespace ChainQuery

/-- What is asked of the outputs from outside. The start of a block changes nothing and is not among
it; the files may be changed by others. -/
inductive OutputCall where
  | stage (item : OutputItem)
  | setFolder (folder : String)
  | endBlock
  | discard
  | endProgram
  | outside (change : Disk → Disk)

def OutputCall.columns? (table : String) : OutputCall → Option (List String)
  | stage item => (item.cells? table).map fun cells => cells.map (·.1)
  | _ => none

def firstColumns? (table : String) (calls : List OutputCall) : Option (List String) :=
  calls.findSome? (OutputCall.columns? table)

namespace Outputs

def call (o : Outputs) : OutputCall → Outputs × Option WriterError
  | .stage item =>
    match o.stage item with
    | .ok o' => (o', none)
    | .error e => (o, some e)
  | .setFolder folder => (o.setFolder folder, none)
  | .endBlock => o.endBlock
  | .discard => (o.discard, none)
  | .endProgram => o.endProgram
  | .outside change => ({ o with disk := change o.disk }, none)

/-- Calls one after the other, failed ones included, with the result of each. -/
def calls (o : Outputs) : List OutputCall → Outputs × List (Option WriterError)
  | [] => (o, [])
  | c :: cs =>
    let (o, result) := o.call c
    let (o, results) := o.calls cs
    (o, result :: results)

/-- The outputs that calls can lead to from the start of a run. -/
def Reached (o : Outputs) : Prop :=
  ∃ config disk wire cs, o = ((start config disk wire).calls cs).1

/-- The outputs after items are staged, whether accepted or not, and then discarded. -/
def rolledBack (o : Outputs) (items : List OutputItem) : Outputs :=
  (o.calls (items.map .stage)).1.discard

/-- Calls have the same results for two outputs, and leave the same files, requests and fates of
deliveries behind. -/
structure Agree (o o' : Outputs) (cs : List OutputCall) : Prop where
  results : (o.calls cs).2 = (o'.calls cs).2
  disk : (o.calls cs).1.disk = (o'.calls cs).1.disk
  wire : (o.calls cs).1.wire = (o'.calls cs).1.wire
  deliveries : (o.calls cs).1.deliveries = (o'.calls cs).1.deliveries

def columnsOf? (o : Outputs) (table : String) : Option (List String) :=
  o.tables.headers.lookup table

def withHeaders (o : Outputs) (headers : Keyed (List String)) : Outputs :=
  { o with tables := { o.tables with headers := headers } }

theorem calls_cons (o : Outputs) (c : OutputCall) (cs : List OutputCall) :
    o.calls (c :: cs) = (((o.call c).1.calls cs).1, (o.call c).2 :: ((o.call c).1.calls cs).2) :=
  rfl

def withRow (o : Outputs) (row : TableRow) : Outputs :=
  { o with tables := { o.tables with rows := o.tables.rows.push row } }

variable {o o' : Outputs} {table : String} {cells : List (String × String)}

theorem call_row_new (h : o.columnsOf? table = none) :
    o.call (.stage (.row table cells)) =
      ((o.withRow ⟨table, cells.map (·.2)⟩).withHeaders
        (o.tables.headers ++ [(table, cells.map (·.1))]), none) := by
  rw [columnsOf?] at h
  simp [call, stage, Tables.addRow, h, Except.map, withRow, withHeaders]

theorem call_row_known (h : o.columnsOf? table = some (cells.map (·.1))) :
    o.call (.stage (.row table cells)) = (o.withRow ⟨table, cells.map (·.2)⟩, none) := by
  rw [columnsOf?] at h
  simp [call, stage, Tables.addRow, h, Except.map, withRow]

theorem call_row_refused {header : List String} (h : o.columnsOf? table = some header)
    (hne : header ≠ cells.map (·.1)) :
    o.call (.stage (.row table cells)) =
      (o, some (.columnMismatch table header (cells.map (·.1)))) := by
  rw [columnsOf?] at h
  simp [call, stage, Tables.addRow, h, hne, Except.map]

theorem columnsOf?_call (o : Outputs) (c : OutputCall) (table : String) :
    (o.call c).1.columnsOf? table = (o.columnsOf? table).or (c.columns? table) := by
  have hother : ∀ {o' : Outputs}, o'.tables.headers = o.tables.headers →
      o'.columnsOf? table = (o.columnsOf? table).or none := by
    intro o' h
    rw [Option.or_none, columnsOf?, h, columnsOf?]
  cases c with
  | stage item =>
    cases item with
    | row name cells =>
      rcases hname : o.columnsOf? name with _ | header
      · rw [call_row_new hname]
        simp only [columnsOf?, withHeaders, List.lookup_append, OutputCall.columns?,
          OutputItem.cells?]
        by_cases h : name = table
        · simp [h]
        · rw [Keyed.lookup_cons_of_ne (Ne.symm h), if_neg h]
          rfl
      · have hkeeps : (o.call (.stage (.row name cells))).1.columnsOf? table =
            o.columnsOf? table := by
          by_cases hheader : header = cells.map (·.1)
          · rw [call_row_known (hheader ▸ hname)]
            rfl
          · rw [call_row_refused hname hheader]
        rw [hkeeps]
        by_cases h : name = table
        · rw [← h, hname]
          rfl
        · simp [OutputCall.columns?, OutputItem.cells?, h]
    | _ => exact hother rfl
  | endBlock => exact hother (headers_writeTables _ _ _ _)
  | endProgram => exact hother (headers_writeTables _ _ _ _)
  | _ => exact hother rfl

theorem columnsOf?_calls (o : Outputs) (cs : List OutputCall) (table : String) :
    (o.calls cs).1.columnsOf? table = (o.columnsOf? table).or (firstColumns? table cs) := by
  induction cs generalizing o with
  | nil => simp [calls, firstColumns?]
  | cons c cs ih =>
    rw [calls_cons, ih, columnsOf?_call, Option.or_assoc, firstColumns?, firstColumns?,
      List.findSome?_cons]
    rcases c.columns? table with _ | columns <;> rfl

/-- Every row that waits is one of a table whose columns are known. -/
def Headed (o : Outputs) : Prop :=
  ∀ row ∈ o.tables.rows.pending, o.columnsOf? row.table ≠ none

theorem Headed.of_pending (h : o.Headed)
    (hrows : ∀ row ∈ o'.tables.rows.pending, row ∈ o.tables.rows.pending)
    (hheaders : o'.tables.headers = o.tables.headers) : o'.Headed := by
  intro row hrow
  rw [columnsOf?, hheaders]
  exact h row (hrows row hrow)

theorem headed_withRow (o : Outputs) (row : TableRow) (headers : Keyed (List String))
    (hold : ∀ row ∈ o.tables.rows.pending, headers.lookup row.table ≠ none)
    (hnew : headers.lookup row.table ≠ none) : ((o.withRow row).withHeaders headers).Headed := by
  intro staged hmem
  have hmem : staged ∈ (o.tables.rows.push row).pending := hmem
  rw [Staging.pending_push, List.mem_append, List.mem_singleton] at hmem
  rcases hmem with hmem | rfl
  · exact hold staged hmem
  · exact hnew

theorem Headed.call (h : o.Headed) (c : OutputCall) : (o.call c).1.Headed := by
  cases c with
  | stage item =>
    cases item with
    | row name cells =>
      rcases hname : o.columnsOf? name with _ | header
      · rw [call_row_new hname]
        refine headed_withRow o _ _ (fun row hmem => ?_) ?_
        · obtain ⟨columns, hcolumns⟩ := Option.ne_none_iff_exists'.mp (h row hmem)
          rw [columnsOf?] at hcolumns
          rw [List.lookup_append, hcolumns, Option.some_or]
          exact Option.some_ne_none columns
        · rw [columnsOf?] at hname
          simp [List.lookup_append, hname]
      · by_cases hheader : header = cells.map (·.1)
        · rw [call_row_known (hheader ▸ hname)]
          refine headed_withRow o ⟨name, cells.map (·.2)⟩ o.tables.headers h ?_
          rw [columnsOf?] at hname
          simp [hname]
        · rwa [call_row_refused hname hheader]
    | _ => exact h
  | endBlock =>
    refine h.of_pending (fun row hmem => ?_) (headers_writeTables _ _ _ _)
    have hrows : (o.call .endBlock).1.tables.rows = o.tables.rows.endBlock.1 :=
      rows_writeTables _ _ _ _
    rw [hrows] at hmem
    rw [← Staging.endBlock_pending]
    exact List.mem_append_right _ hmem
  | endProgram =>
    refine h.of_pending (fun row hmem => ?_) (headers_writeTables _ _ _ _)
    have hrows : (o.call .endProgram).1.tables.rows = o.tables.rows.endProgram.1 :=
      rows_writeTables _ _ _ _
    rw [hrows] at hmem
    cases hmem
  | discard =>
    refine h.of_pending (fun row hmem => List.mem_append_left _ ?_) rfl
    exact (List.append_nil o.tables.rows.committed) ▸ hmem
  | _ => exact h

theorem Headed.calls (h : o.Headed) (cs : List OutputCall) : (o.calls cs).1.Headed := by
  induction cs generalizing o with
  | nil => exact h
  | cons c cs ih => exact ih (h.call c)

theorem Reached.headed (h : o.Reached) : o.Headed := by
  obtain ⟨config, disk, wire, cs, rfl⟩ := h
  refine Headed.calls ?_ cs
  intro row hrow
  cases hrow

theorem mem_rows_of_byTable {rows : List TableRow} (h : table ∈ Keyed.keys (TableRow.byTable rows)) :
    ∃ row ∈ rows, row.table = table := by
  refine Classical.byContradiction fun hno => ?_
  have hnone : TableRow.ofTable table rows = [] := by
    rw [TableRow.ofTable, List.map_eq_nil_iff, List.filter_eq_nil_iff]
    exact fun row hrow heq => hno ⟨row, hrow, by simpa using heq⟩
  have hlookup : (TableRow.byTable rows).lookup table = none := by
    rw [TableRow.lookup_byTable, if_pos hnone]
  obtain ⟨entry, hentry, rfl⟩ := List.mem_map.1 h
  simpa using List.lookup_eq_none_iff.1 hlookup entry hentry

/-- Tables are written without regard to the columns of other tables. -/
theorem writeTables_headers {t : Tables} {headers : Keyed (List String)}
    {tables : Keyed (List (List String))}
    (h : ∀ table ∈ Keyed.keys tables, headers.lookup table = t.headers.lookup table)
    (folder : Option String) (d : Disk) :
    ({ t with headers := headers }).writeTables folder d tables =
      ({ (t.writeTables folder d tables).1 with headers := headers },
        (t.writeTables folder d tables).2) := by
  induction tables generalizing t d with
  | nil => rfl
  | cons entry tables ih =>
    obtain ⟨table, records⟩ := entry
    have hone : ({ t with headers := headers }).writeTable folder d table records =
        ({ (t.writeTable folder d table records).1 with headers := headers },
          (t.writeTable folder d table records).2) := by
      unfold Tables.writeTable
      dsimp only
      rw [h table (List.mem_cons_self)]
      split <;> rfl
    have hheaders : (t.writeTable folder d table records).1.headers = t.headers :=
      headers_writeTables t folder d [(table, records)]
    rw [Tables.writeTables, hone]
    dsimp only
    rw [ih fun other hother => by rw [hheaders]; exact h other (List.mem_cons_of_mem _ hother)]
    rfl

/-- The second outputs are the first ones with the columns of further tables, of which the first ones
have no row yet. -/
structure Widens (o o' : Outputs) : Prop where
  same : o' = o.withHeaders o'.tables.headers
  known : ∀ table columns, o.columnsOf? table = some columns → o'.columnsOf? table = some columns
  headed : o.Headed

/-- The first row that calls give to a further table has its columns. -/
def Fits (o o' : Outputs) (cs : List OutputCall) : Prop :=
  ∀ table columns given, o.columnsOf? table = none → o'.columnsOf? table = some columns →
    firstColumns? table cs = some given → given = columns

theorem firstColumns?_cons (table : String) (c : OutputCall) (cs : List OutputCall) :
    firstColumns? table (c :: cs) = (c.columns? table).or (firstColumns? table cs) := by
  rw [firstColumns?, firstColumns?, List.findSome?_cons]
  rcases c.columns? table with _ | columns <;> rfl

theorem Widens.of_same (h : Widens o o') {p p' : Outputs} (hheaded : p.Headed)
    (hsame : p' = p.withHeaders o'.tables.headers) (hheaders : p.tables.headers = o.tables.headers) :
    Widens p p' := by
  subst hsame
  refine ⟨rfl, fun table columns hcolumns => h.known table columns ?_, hheaded⟩
  rwa [columnsOf?, ← hheaders]

/-- A call that fits leaves the second outputs with the columns that it gives to tables. -/
theorem Widens.known_call (h : Widens o o') {c : OutputCall} (hfits : Fits o o' [c])
    (table : String) (columns : List String)
    (hcolumns : (o.call c).1.columnsOf? table = some columns) :
    (o'.call c).1.columnsOf? table = some columns := by
  rw [columnsOf?_call] at hcolumns ⊢
  rcases hold : o.columnsOf? table with _ | header
  · rw [hold, Option.none_or] at hcolumns
    rcases hnew : o'.columnsOf? table with _ | header
    · rw [hcolumns, Option.none_or]
    · have hgiven : firstColumns? table [c] = some columns := by
        rw [firstColumns?_cons, hcolumns, Option.some_or]
      rw [hfits table header columns hold hnew hgiven, Option.some_or]
  · rw [hold] at hcolumns
    rw [h.known table header hold]
    exact hcolumns

/-- Rows that are due are written the same way, since their tables are not further ones. -/
theorem Widens.writeTables (h : Widens o o') {due : List TableRow} {t : Tables}
    (ht : t.headers = o.tables.headers) (hdue : ∀ row ∈ due, row ∈ o.tables.rows.pending)
    (folder : Option String) (d : Disk) :
    ({ t with headers := o'.tables.headers }).writeTables folder d (TableRow.byTable due) =
      ({ (t.writeTables folder d (TableRow.byTable due)).1 with headers := o'.tables.headers },
        (t.writeTables folder d (TableRow.byTable due)).2) := by
  refine writeTables_headers (fun table hmem => ?_) folder d
  obtain ⟨row, hrow, rfl⟩ := mem_rows_of_byTable hmem
  obtain ⟨columns, hcolumns⟩ := Option.ne_none_iff_exists'.mp (h.headed row (hdue row hrow))
  rw [ht]
  exact (h.known _ _ hcolumns).trans hcolumns.symm

theorem Widens.endBlock (h : Widens o o') :
    o'.endBlock = (o.endBlock.1.withHeaders o'.tables.headers, o.endBlock.2) := by
  have hdue : ∀ row ∈ o.tables.rows.endBlock.2, row ∈ o.tables.rows.pending := by
    intro row hrow
    rw [← Staging.endBlock_pending]
    exact List.mem_append_left _ hrow
  have hwrite := h.writeTables (t := { o.tables with rows := o.tables.rows.endBlock.1 }) rfl hdue
    o.folder o.disk
  rw [h.same]
  simp only [Outputs.endBlock, Tables.endBlock, withHeaders, hwrite]

theorem Widens.endProgram (h : Widens o o') :
    o'.endProgram = (o.endProgram.1.withHeaders o'.tables.headers, o.endProgram.2) := by
  have hdue : ∀ row ∈ o.tables.rows.endProgram.2, row ∈ o.tables.rows.pending :=
    fun _ hrow => hrow
  have hwrite := h.writeTables (t := { o.tables with rows := o.tables.rows.endProgram.1 }) rfl
    hdue o.folder o.disk
  rw [h.same]
  simp only [Outputs.endProgram, Tables.endProgram, withHeaders, hwrite]

/-- A call that fits has the same result for both outputs, and they stay related. -/
theorem Widens.call (h : Widens o o') {c : OutputCall} (hfits : Fits o o' [c]) :
    (o'.call c).2 = (o.call c).2 ∧ Widens (o.call c).1 (o'.call c).1 := by
  have hheaded := h.headed.call c
  have quiet : ∀ {p p' : Outputs}, p.Headed → p' = p.withHeaders o'.tables.headers →
      p.tables.headers = o.tables.headers → Widens p p' := fun h₁ h₂ h₃ => h.of_same h₁ h₂ h₃
  cases c with
  | stage item =>
    cases item with
    | row table cells =>
      have hknown := h.known_call hfits
      rcases hold : o.columnsOf? table with _ | header
      · rcases hnew : o'.columnsOf? table with _ | columns
        · rw [call_row_new hold] at hheaded hknown ⊢
          rw [call_row_new hnew] at hknown ⊢
          exact ⟨rfl, by rw [h.same]; rfl, hknown, hheaded⟩
        · have heq : cells.map (·.1) = columns := by
            refine hfits table columns _ hold hnew ?_
            simp [firstColumns?, OutputCall.columns?, OutputItem.cells?]
          rw [call_row_new hold] at hheaded hknown ⊢
          rw [call_row_known (heq ▸ hnew)] at hknown ⊢
          exact ⟨rfl, by rw [h.same]; rfl, hknown, hheaded⟩
      · have hnew := h.known table header hold
        by_cases heq : header = cells.map (·.1)
        · subst heq
          rw [call_row_known hold] at hheaded hknown ⊢
          rw [call_row_known hnew] at hknown ⊢
          exact ⟨rfl, by rw [h.same]; rfl, hknown, hheaded⟩
        · rw [call_row_refused hold heq, call_row_refused hnew heq]
          exact ⟨rfl, h⟩
    | _ => exact ⟨rfl, quiet hheaded (by rw [h.same]; rfl) rfl⟩
  | endBlock =>
    rw [Outputs.call, h.endBlock]
    exact ⟨rfl, quiet hheaded rfl (headers_writeTables _ _ _ _)⟩
  | endProgram =>
    rw [Outputs.call, h.endProgram]
    exact ⟨rfl, quiet hheaded rfl (headers_writeTables _ _ _ _)⟩
  | _ => exact ⟨rfl, quiet hheaded (by rw [h.same]; rfl) rfl⟩

/-- A row that misses the columns of a further table is refused by the second outputs alone. -/
theorem fits_of_result {c : OutputCall} (hresult : (o'.call c).2 = (o.call c).2) :
    Fits o o' [c] := by
  intro table columns given hold hnew hgiven
  cases c with
  | stage item =>
    cases item with
    | row name cells =>
      by_cases hname : name = table
      · subst hname
        obtain rfl : cells.map (·.1) = given := by
          simpa [firstColumns?, OutputCall.columns?, OutputItem.cells?] using hgiven
        refine Classical.byContradiction fun hne => ?_
        rw [call_row_new hold, call_row_refused hnew (Ne.symm hne)] at hresult
        cases hresult
      · simp [firstColumns?, OutputCall.columns?, OutputItem.cells?, hname] at hgiven
    | _ => cases hgiven
  | _ => cases hgiven

theorem fits_cons {c : OutputCall} {cs : List OutputCall} :
    Fits o o' (c :: cs) ↔ Fits o o' [c] ∧ Fits (o.call c).1 (o'.call c).1 cs := by
  have hone : ∀ table, firstColumns? table [c] = c.columns? table := by
    intro table
    rw [firstColumns?_cons, firstColumns?, List.findSome?_nil, Option.or_none]
  constructor
  · intro h
    refine ⟨fun table columns given hold hnew hgiven => ?_,
      fun table columns given hold hnew hgiven => ?_⟩
    · rw [hone] at hgiven
      exact h table columns given hold hnew (by rw [firstColumns?_cons, hgiven, Option.some_or])
    · rw [columnsOf?_call, Option.or_eq_none_iff] at hold
      rw [columnsOf?_call, hold.2, Option.or_none] at hnew
      exact h table columns given hold.1 hnew
        (by rw [firstColumns?_cons, hold.2, Option.none_or, hgiven])
  · rintro ⟨hc, hcs⟩ table columns given hold hnew hgiven
    rw [firstColumns?_cons] at hgiven
    rcases hcolumns : c.columns? table with _ | first
    · rw [hcolumns, Option.none_or] at hgiven
      refine hcs table columns given ?_ ?_ hgiven
      · rw [columnsOf?_call, hold, hcolumns, Option.none_or]
      · rw [columnsOf?_call, hnew, Option.some_or]
    · rw [hcolumns, Option.some_or] at hgiven
      exact hc table columns given hold hnew (by rw [hone, hcolumns, hgiven])

theorem Widens.calls (h : Widens o o') (cs : List OutputCall) :
    ((o'.calls cs).2 = (o.calls cs).2 ↔ Fits o o' cs) ∧
      (Fits o o' cs → Widens (o.calls cs).1 (o'.calls cs).1) := by
  induction cs generalizing o o' with
  | nil => exact ⟨⟨fun _ _ _ _ _ _ hgiven => (by cases hgiven), fun _ => rfl⟩, fun _ => h⟩
  | cons c cs ih =>
    rw [calls_cons, calls_cons, fits_cons]
    dsimp only
    constructor
    · rw [List.cons.injEq]
      constructor
      · rintro ⟨hc, hcs⟩
        have hfits := fits_of_result hc
        exact ⟨hfits, (ih (h.call hfits).2).1.1 hcs⟩
      · rintro ⟨hc, hcs⟩
        obtain ⟨hresult, hnext⟩ := h.call hc
        exact ⟨hresult, (ih hnext).1.2 hcs⟩
    · rintro ⟨hc, hcs⟩
      exact (ih (h.call hc).2).2 hcs

/-- Related outputs agree on calls exactly when these fit. -/
theorem Widens.agree_iff (h : Widens o o') (cs : List OutputCall) :
    Agree o' o cs ↔ Fits o o' cs := by
  obtain ⟨hresults, hafter⟩ := h.calls cs
  constructor
  · exact fun hagree => hresults.1 hagree.results
  · intro hfits
    have hsame := (hafter hfits).same
    exact ⟨hresults.2 hfits, by rw [hsame]; rfl, by rw [hsame]; rfl, by rw [hsame]; rfl⟩

theorem discard_stage (o : Outputs) (item : OutputItem) :
    (o.call (.stage item)).1.discard =
      o.discard.withHeaders (o.call (.stage item)).1.tables.headers := by
  cases item with
  | row table cells =>
    rcases hold : o.columnsOf? table with _ | header
    · rw [call_row_new hold]
      rfl
    · by_cases heq : header = cells.map (·.1)
      · rw [call_row_known (heq ▸ hold)]
        rfl
      · rw [call_row_refused hold heq]
        rfl
  | _ => rfl

theorem rolledBack_eq (o : Outputs) (items : List OutputItem) :
    o.rolledBack items =
      o.discard.withHeaders (o.calls (items.map .stage)).1.tables.headers := by
  induction items generalizing o with
  | nil => rfl
  | cons item items ih =>
    rw [List.map_cons, calls_cons]
    exact (ih (o.call (.stage item)).1).trans (by rw [discard_stage]; rfl)

theorem discard_of_stages (h : o.Stages []) : o.discard = o := by
  obtain ⟨hrows, hlines, hrecords, hrequests⟩ := h
  obtain ⟨folder, ⟨⟨_, rows, _⟩, _, _⟩, ⟨⟨_, lines, _⟩, _⟩, ⟨records, _⟩, ⟨_, ⟨_, requests, _⟩, _, _⟩,
    disk, wire⟩ := o
  cases hrows
  cases hlines
  cases hrecords
  cases hrequests
  rfl

theorem widens_rolledBack (hheaded : o.Headed) (hstages : o.Stages []) (items : List OutputItem) :
    Widens o (o.rolledBack items) := by
  refine ⟨?_, fun table columns hcolumns => ?_, hheaded⟩
  · rw [rolledBack_eq, discard_of_stages hstages]
    rfl
  · rw [rolledBack_eq]
    exact (columnsOf?_calls o (items.map .stage) table).trans (by rw [hcolumns]; rfl)

/-- Nothing but the columns of tables is left of what is staged and discarded. What is done later goes
as without it exactly when the first row of each table that was given its first columns by it has
the same columns again. So nothing is left exactly when it gave no table its first columns. -/
theorem rollback_agrees_iff (hreached : o.Reached) (hstages : o.Stages []) (items : List OutputItem) :
    o.rolledBack items = o.withHeaders (o.rolledBack items).tables.headers ∧
    (∀ later, Agree (o.rolledBack items) o later ↔
      ∀ table columns given, o.columnsOf? table = none →
        firstColumns? table (items.map .stage) = some columns →
        firstColumns? table later = some given → given = columns) ∧
    ((∀ later, Agree (o.rolledBack items) o later) ↔
      ∀ table, o.columnsOf? table = none → firstColumns? table (items.map .stage) = none) := by
  have hw := widens_rolledBack hreached.headed hstages items
  have hcolumns : ∀ table, (o.rolledBack items).columnsOf? table =
      (o.columnsOf? table).or (firstColumns? table (items.map .stage)) := by
    intro table
    rw [rolledBack_eq]
    exact columnsOf?_calls o (items.map .stage) table
  have hiff : ∀ later, Agree (o.rolledBack items) o later ↔
      ∀ table columns given, o.columnsOf? table = none →
        firstColumns? table (items.map .stage) = some columns →
        firstColumns? table later = some given → given = columns := by
    intro later
    rw [hw.agree_iff]
    refine forall_congr' fun table => forall_congr' fun columns => forall_congr' fun given =>
      forall_congr' fun hnone => ?_
    rw [hcolumns, hnone, Option.none_or]
  refine ⟨hw.same, hiff, ⟨fun h table hnone => ?_, fun h later => ?_⟩⟩
  · refine Option.eq_none_iff_forall_ne_some.2 fun columns hsome => ?_
    -- A row with one column more would be refused after the rollback only.
    have hlonger : firstColumns? table
        [.stage (.row table (("", "") :: columns.map fun name => (name, "")))] =
          some ("" :: columns) := by
      simp [firstColumns?, OutputCall.columns?, OutputItem.cells?, Function.comp_def]
    have heq := (hiff _).1 (h _) table columns _ hnone hsome hlonger
    simp at heq
  · refine (hiff later).2 fun table columns given hnone hsome => ?_
    rw [h table hnone] at hsome
    cases hsome

def freshWriters : Outputs :=
  start { outputFolder := some "." } {} {}

theorem reached_freshWriters : freshWriters.Reached :=
  ⟨_, _, _, [], rfl⟩

theorem stages_freshWriters : freshWriters.Stages [] :=
  ⟨rfl, rfl, rfl, rfl⟩

/-- A discarded row leaves no trace when the next row of its table has the same column. -/
theorem rollback_agrees_same_column :
    freshWriters.Reached ∧ freshWriters.Stages [] ∧
    Agree (freshWriters.rolledBack [.row "t" [("a", "1")]]) freshWriters
      [.stage (.row "t" [("a", "2")]), .endProgram] := by
  refine ⟨reached_freshWriters, stages_freshWriters, ?_⟩
  refine ((rollback_agrees_iff reached_freshWriters stages_freshWriters _).2.1 _).2 ?_
  intro table columns given _ hfirst hlater
  by_cases h : "t" = table
  · subst h
    exact Option.some.inj (hlater.symm.trans hfirst)
  · simp [firstColumns?, OutputCall.columns?, OutputItem.cells?, h] at hfirst

/-- A row with another column is refused because of a row that was discarded. -/
theorem rollback_refuses_other_column :
    ¬ ∀ (o : Outputs) (items : List OutputItem) (later : List OutputCall), o.Reached →
      o.Stages [] → Agree (o.rolledBack items) o later := by
  intro h
  have hagree := h freshWriters [.row "t" [("a", "1")]] [.stage (.row "t" [("b", "2")])]
    reached_freshWriters stages_freshWriters
  exact absurd hagree.results (by decide)

end Outputs
end ChainQuery
