import Mathlib.Data.List.Basic

/-!
# Comma-separated rows

`parseCsv` of `services/raw/src/interpreters/upload.ts`, over texts of code
units, and the encoding of a table that it inverts: cells with a quote, a comma
or a line break between quotes, with their quotes doubled.
-/

namespace BrainCore.Raw

/-- A text of the runtime: UTF-16 code units, paired or not. -/
abbrev CsvText := List UInt16

def quote : UInt16 := 34

def comma : UInt16 := 44

def lineFeed : UInt16 := 10

def carriageReturn : UInt16 := 13

/-! ## The parser -/

/-- The variables of the loop. -/
structure CsvState where
  rows : List (List CsvText) := []
  row : List CsvText := []
  cell : CsvText := []
  inQuotes : Bool := false
deriving DecidableEq

namespace CsvState

/-- `cell += ch`. -/
def append (state : CsvState) (ch : UInt16) : CsvState :=
  { state with cell := state.cell ++ [ch] }

/-- `row.push(cell)`, and a new cell. -/
def endCell (state : CsvState) : CsvState :=
  { state with row := state.row ++ [state.cell], cell := [] }

/-- The cell, and with it the row, is pushed. -/
def endRow (state : CsvState) : CsvState :=
  { state with rows := state.rows ++ [state.row ++ [state.cell]], row := [], cell := [] }

/-- One turn of the loop, unless it is at a doubled quote within quotes. -/
def turn (state : CsvState) (ch : UInt16) : CsvState :=
  if state.inQuotes then
    if ch = quote then { state with inQuotes := false } else state.append ch
  else if ch = quote then { state with inQuotes := true }
  else if ch = comma then state.endCell
  else if ch = lineFeed then state.endRow
  else if ch = carriageReturn then state
  else state.append ch

end CsvState

/-- The loop over the characters.  Within quotes a doubled quote is taken in one turn. -/
def parseCsvFrom (state : CsvState) : CsvText → CsvState
  | [] => state
  | [ch] => state.turn ch
  | ch :: next :: rest =>
      if state.inQuotes ∧ ch = quote ∧ next = quote then parseCsvFrom (state.append quote) rest
      else parseCsvFrom (state.turn ch) (next :: rest)

def parseCsv (text : CsvText) : List (List CsvText) := (parseCsvFrom {} text).endRow.rows

/-! ## The encoding -/

/-- The cell has a character that needs quotes. -/
def needsQuotes (cell : CsvText) : Bool :=
  cell.any fun ch => ch = quote || ch = comma || ch = carriageReturn || ch = lineFeed

/-- The text with its quotes doubled. -/
def doubleQuotes (cell : CsvText) : CsvText :=
  cell.flatMap fun ch => if ch = quote then [quote, quote] else [ch]

def encodeCell (cell : CsvText) : CsvText :=
  if needsQuotes cell then quote :: (doubleQuotes cell ++ [quote]) else cell

/-- The cells with commas between them. -/
def encodeRow : List CsvText → CsvText
  | [] => []
  | [cell] => encodeCell cell
  | cell :: next :: rest => encodeCell cell ++ comma :: encodeRow (next :: rest)

/-- What ends a row. -/
inductive Terminator where
  | lf
  | crlf
deriving DecidableEq

def Terminator.text : Terminator → CsvText
  | lf => [lineFeed]
  | crlf => [carriageReturn, lineFeed]

/-- The rows, each but the last with a terminator of its own choice. -/
def encodeCsv (terminator : Nat → Terminator) : List (List CsvText) → CsvText
  | [] => []
  | [row] => encodeRow row
  | row :: next :: rest =>
      encodeRow row ++ (terminator 0).text ++
        encodeCsv (fun n => terminator (n + 1)) (next :: rest)

/-! ## Cells -/

variable {state : CsvState} {cell rest : CsvText}

@[simp]
theorem parseCsvFrom_nil : parseCsvFrom state [] = state := rfl

/-- A turn at a character that starts no doubled quote within quotes. -/
theorem parseCsvFrom_cons {ch : UInt16}
    (h : ¬(state.inQuotes = true ∧ ch = quote ∧ rest.head? = some quote)) :
    parseCsvFrom state (ch :: rest) = parseCsvFrom (state.turn ch) rest := by
  cases rest with
  | nil => rfl
  | cons next tail => exact if_neg fun hdouble => h ⟨hdouble.1, hdouble.2.1, congrArg some hdouble.2.2⟩

theorem parseCsvFrom_doubled (h : state.inQuotes = true) :
    parseCsvFrom state (quote :: quote :: rest) = parseCsvFrom (state.append quote) rest :=
  if_pos ⟨h, rfl, rfl⟩

/-- Outside of quotes every character has a turn of its own. -/
theorem parseCsvFrom_unquoted (h : state.inQuotes = false) (ch : UInt16) :
    parseCsvFrom state (ch :: rest) = parseCsvFrom (state.turn ch) rest :=
  parseCsvFrom_cons fun hdouble => by simp [h] at hdouble

/-- Within quotes the doubled text is read as the text. -/
theorem parseCsvFrom_doubleQuotes (h : state.inQuotes = true) :
    parseCsvFrom state (doubleQuotes cell ++ rest) =
      parseCsvFrom { state with cell := state.cell ++ cell } rest := by
  induction cell generalizing state with
  | nil => simp [doubleQuotes]
  | cons ch tail ih =>
      have hstep : parseCsvFrom state (doubleQuotes (ch :: tail) ++ rest) =
          parseCsvFrom (state.append ch) (doubleQuotes tail ++ rest) := by
        by_cases hch : ch = quote
        · subst hch
          simpa [doubleQuotes] using parseCsvFrom_doubled h
        · have hturn : state.turn ch = state.append ch := by simp [CsvState.turn, h, hch]
          rw [← hturn, ← parseCsvFrom_cons fun hdouble => hch hdouble.2.1]
          simp [doubleQuotes, hch]
      rw [hstep, ih (show (state.append ch).inQuotes = true from h)]
      simp [CsvState.append]

/-- Characters that need no quotes are read as they are. -/
theorem parseCsvFrom_plain (h : state.inQuotes = false) (hplain : needsQuotes cell = false) :
    parseCsvFrom state (cell ++ rest) =
      parseCsvFrom { state with cell := state.cell ++ cell } rest := by
  induction cell generalizing state with
  | nil => simp
  | cons ch tail ih =>
      simp only [needsQuotes, List.any_cons, Bool.or_eq_false_iff, decide_eq_false_iff_not]
        at hplain
      obtain ⟨⟨⟨⟨hquote, hcomma⟩, hreturn⟩, hfeed⟩, htail⟩ := hplain
      have hturn : state.turn ch = state.append ch := by
        simp [CsvState.turn, h, hquote, hcomma, hreturn, hfeed]
      rw [List.cons_append, parseCsvFrom_unquoted h, hturn,
        ih (show (state.append ch).inQuotes = false from h) htail]
      simp [CsvState.append]

/-- The encoding of a cell is read as the cell, up to the comma or the end that follows it. -/
theorem parseCsvFrom_encodeCell (h : state.inQuotes = false) (hempty : state.cell = [])
    (hrest : rest.head? ≠ some quote) :
    parseCsvFrom state (encodeCell cell ++ rest) = parseCsvFrom { state with cell := cell } rest := by
  unfold encodeCell
  split
  · have hopen : state.turn quote = { state with inQuotes := true } := by simp [CsvState.turn, h]
    rw [List.cons_append, List.append_assoc, parseCsvFrom_unquoted h, hopen,
      parseCsvFrom_doubleQuotes rfl, hempty, List.nil_append, List.singleton_append,
      parseCsvFrom_cons fun hdouble => hrest hdouble.2.2]
    simp [CsvState.turn, h]
  · rename_i hplain
    rw [parseCsvFrom_plain h (Bool.eq_false_iff.mpr hplain), hempty, List.nil_append]

/-! ## Rows -/

/-- The encoding of a row is read as its cells, the last of which is still open. -/
theorem parseCsvFrom_encodeRow {row : List CsvText} (hrow : row ≠ [])
    (h : state.inQuotes = false) (hempty : state.cell = []) (hrest : rest.head? ≠ some quote) :
    parseCsvFrom state (encodeRow row ++ rest) =
      parseCsvFrom { state with row := state.row ++ row.dropLast, cell := row.getLast hrow } rest := by
  induction row generalizing state with
  | nil => exact absurd rfl hrow
  | cons cell tail ih =>
      cases tail with
      | nil => simpa [encodeRow] using parseCsvFrom_encodeCell h hempty hrest
      | cons next others =>
          let read : CsvState := { state with cell := cell }
          have hread : read.inQuotes = false := h
          have hturn : read.turn comma = { state with row := state.row ++ [cell], cell := [] } := by
            simp [read, CsvState.turn, CsvState.endCell, h, show comma ≠ quote by decide]
          rw [encodeRow, List.append_assoc, List.cons_append,
            parseCsvFrom_encodeCell h hempty (by simp [show comma ≠ quote by decide]),
            parseCsvFrom_unquoted hread, hturn]
          have hothers := ih (List.cons_ne_nil next others)
            (show read.endCell.inQuotes = false from h) rfl
          simpa [read, CsvState.endCell] using hothers

theorem parseCsvFrom_terminator (h : state.inQuotes = false) (terminator : Terminator) :
    parseCsvFrom state (terminator.text ++ rest) = parseCsvFrom state.endRow rest := by
  have hfeed : state.turn lineFeed = state.endRow := by
    simp [CsvState.turn, h, show lineFeed ≠ quote by decide, show lineFeed ≠ comma by decide]
  have hreturn : state.turn carriageReturn = state := by
    simp [CsvState.turn, h, show carriageReturn ≠ quote by decide,
      show carriageReturn ≠ comma by decide, show carriageReturn ≠ lineFeed by decide]
  cases terminator with
  | lf => rw [Terminator.text, List.singleton_append, parseCsvFrom_unquoted h, hfeed]
  | crlf =>
      rw [Terminator.text, List.cons_append, List.singleton_append, parseCsvFrom_unquoted h, hreturn,
        parseCsvFrom_unquoted h, hfeed]

theorem terminator_head (terminator : Terminator) (rest : CsvText) :
    (terminator.text ++ rest).head? ≠ some quote := by
  cases terminator <;> simp [Terminator.text, quote, lineFeed, carriageReturn]

/-- Where the encoding of a table ends, its last row is open and lacks no cell. -/
theorem parseCsvFrom_encodeCsv {rows : List (List CsvText)} (hrows : rows ≠ [])
    (hcells : ∀ row ∈ rows, row ≠ []) (terminator : Nat → Terminator) (done : List (List CsvText))
    (hrest : rest.head? ≠ some quote) :
    ∃ state : CsvState, state.inQuotes = false ∧ state.endRow = { rows := done ++ rows } ∧
      parseCsvFrom { rows := done } (encodeCsv terminator rows ++ rest) = parseCsvFrom state rest := by
  induction rows generalizing terminator done with
  | nil => exact absurd rfl hrows
  | cons row tail ih =>
      have hrow : row ≠ [] := hcells row List.mem_cons_self
      let read : CsvState := { rows := done, row := row.dropLast, cell := row.getLast hrow }
      have hread : ∀ text : CsvText, text.head? ≠ some quote →
          parseCsvFrom { rows := done } (encodeRow row ++ text) = parseCsvFrom read text :=
        fun text htext => parseCsvFrom_encodeRow hrow rfl rfl htext
      have hend : read.endRow = { rows := done ++ [row] } := by
        simp [read, CsvState.endRow, List.dropLast_concat_getLast hrow]
      cases tail with
      | nil => exact ⟨read, rfl, hend, hread rest hrest⟩
      | cons next others =>
          obtain ⟨state, hunquoted, hopen, hothers⟩ := ih (List.cons_ne_nil next others)
            (fun row hmem => hcells row (List.mem_cons_of_mem _ hmem))
            (fun n => terminator (n + 1)) (done ++ [row])
          refine ⟨state, hunquoted, by simpa using hopen, ?_⟩
          rw [encodeCsv, List.append_assoc, List.append_assoc, hread _ (terminator_head _ _),
            parseCsvFrom_terminator rfl, hend, hothers]

/-- A table is parsed back from its encoding, and a terminator at its end adds a row with an empty
cell. -/
theorem parseCsv_encodeCsv (rows : List (List CsvText)) (terminator : Nat → Terminator)
    (last : Terminator) (hrows : rows ≠ []) (hcells : ∀ row ∈ rows, row ≠ []) :
    parseCsv (encodeCsv terminator rows) = rows ∧
      parseCsv (encodeCsv terminator rows ++ last.text) = rows ++ [[[]]] := by
  constructor
  · have hnil : ([] : CsvText).head? ≠ some quote := by simp
    obtain ⟨state, -, hopen, hparse⟩ := parseCsvFrom_encodeCsv hrows hcells terminator [] hnil
    rw [List.append_nil] at hparse
    rw [parseCsv, hparse, parseCsvFrom_nil, hopen, List.nil_append]
  · have hhead := terminator_head last []
    have hlast := fun (state : CsvState) (h : state.inQuotes = false) =>
      @parseCsvFrom_terminator state [] h last
    rw [List.append_nil] at hhead
    simp only [List.append_nil, parseCsvFrom_nil] at hlast
    obtain ⟨state, hunquoted, hopen, hparse⟩ :=
      parseCsvFrom_encodeCsv hrows hcells terminator [] hhead
    rw [parseCsv, hparse, hlast state hunquoted, hopen]
    simp [CsvState.endRow]

/-- A row with a quoted cell and an empty one, and a second row. -/
theorem parseCsv_encodeCsv_two :
    let rows : List (List CsvText) := [[[65, 44, 34, 10], []], [[66]]]
    let text := encodeCsv (fun _ => .crlf) rows
    text = [34, 65, 44, 34, 34, 10, 34, 44, 13, 10, 66] ∧ parseCsv text = rows ∧
      parseCsv (text ++ Terminator.lf.text) = rows ++ [[[]]] :=
  ⟨by decide, parseCsv_encodeCsv _ _ .lf (by decide) (by decide)⟩

end BrainCore.Raw
