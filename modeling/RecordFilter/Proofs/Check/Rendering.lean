import RecordFilter.Proofs.Check.Modes
import RecordFilter.Proofs.Json.Lines
import RecordFilter.Proofs.Json.ReadBack
import RecordFilter.Proofs.Json.Regular

/-! Checking what a check has printed. The records that are kept are read back from either layout, and
the filter keeps all of them again. -/

namespace RecordFilter.Check

open Document (Regular)

theorem run_eq_ok_cases {check : Check} {result : Result} (h : check.run = .ok result) :
    result = .validFilter ∨ ∃ filter text documents, Filter.parse check.filter = .ok filter ∧
      check.syntaxOnly = false ∧ Json.parseStream text = .ok documents ∧
        judge filter check.separator documents = some result := by
  unfold run at h
  cases valid : Filter.parse check.filter with
  | error cause =>
    rw [valid] at h
    cases h
  | ok filter =>
    rw [valid] at h
    cases evaluates : check.syntaxOnly with
    | true =>
      rw [evaluates] at h
      cases h
      exact .inl rfl
    | false =>
      rw [evaluates] at h
      cases given : check.input with
      | none =>
        rw [given] at h
        cases h
      | some text =>
        cases read : Json.parseStream text with
        | error defect =>
          simp only [given, read] at h
          cases h
        | ok documents =>
          cases judged : judge filter check.separator documents with
          | none =>
            simp only [given, read, Except.mapError, bind, Except.bind, judged] at h
            cases h
          | some found =>
            simp only [given, read, Except.mapError, bind, Except.bind, judged] at h
            cases h
            exact .inr ⟨filter, text, documents, rfl, rfl, read, judged⟩

theorem judge_eq_filtered {filter : Filter} {separator : Char} {documents records : List Json}
    (h : judge filter separator documents = some (.filtered records)) :
    ∃ items, documents = [.array items] ∧ records = items.filter fun d => filter.holds d separator := by
  unfold judge at h
  split at h
  · cases h
  · cases h
    exact ⟨_, rfl, rfl⟩
  · cases h
  · cases h

theorem judge_eq_stream {filter : Filter} {separator : Char} {documents records : List Json}
    (h : judge filter separator documents = some (.stream records)) :
    records = documents.filter fun d => filter.holds d separator := by
  unfold judge at h
  split at h
  · cases h
  · cases h
  · cases h
  · cases h
    rfl

theorem parse_render_filtered {records : List Json} (regular : Regular Json.Reader.maxDepth (.array records))
    (pretty : Bool) : Json.parse ((Result.filtered records).render pretty) = .ok (.array records) := by
  cases pretty with
  | true => exact Json.parse_pretty regular
  | false => exact Json.parse_compact regular

theorem parseStream_render_stream {records : List Json}
    (regular : ∀ d ∈ records, Regular Json.Reader.maxDepth d) (nonempty : records ≠ []) (pretty : Bool) :
    Json.parseStream ((Result.stream records).render pretty) = .ok records := by
  have lines : List.Forall₂ (fun text d => Json.parse text = .ok d) (records.map Json.compact) records :=
    List.forall₂_map_left_iff.mpr <| List.forall₂_same.mpr fun d member =>
      Json.parse_compact (regular d member)
  apply Json.parseStream_lines lines
  intro empty
  exact nonempty (List.map_eq_nil_iff.mp empty)

/-- The records that a check prints are those that the same check keeps of the printed text: of an
array in either layout, and of two records or more that take a line each. -/
theorem run_render {check : Check} {records : List Json} (pretty : Bool) :
    (check.run = .ok (.filtered records) →
      ({ check with input := some ((Result.filtered records).render pretty) } : Check).run =
        .ok (.filtered records)) ∧
    (check.run = .ok (.stream records) → 2 ≤ records.length →
      ((Result.stream records).render pretty).splitOn '\n' = records.map Json.compact ∧
        ({ check with input := some ((Result.stream records).render pretty) } : Check).run =
          .ok (.stream records)) := by
  constructor
  · intro kept
    rcases run_eq_ok_cases kept with valid | ⟨filter, text, documents, valid, evaluates, read, judged⟩
    · cases valid
    obtain ⟨items, rfl, rfl⟩ := judge_eq_filtered judged
    -- What was read once fits into the reader again, and so does an array of fewer items.
    have regular := Json.regular_of_parseStream read (.array items) List.mem_cons_self
    have again := parse_render_filtered
      (Document.regular_array_filter regular fun d => filter.holds d check.separator) pretty
    refine run_eq valid evaluates (Json.parseStream_of_parse again) ?_
    simp only [judge_single, single, List.filter_filter, Bool.and_self]
  · intro kept several
    rcases run_eq_ok_cases kept with valid | ⟨filter, text, documents, valid, evaluates, read, judged⟩
    · cases valid
    obtain rfl := judge_eq_stream judged
    have regular := Json.regular_of_parseStream read
    have nonempty := List.ne_nil_of_length_pos (Nat.zero_lt_of_lt several)
    have again := parseStream_render_stream
      (fun d member => regular d (List.mem_filter.mp member).1) nonempty pretty
    refine ⟨Json.splitOn_intercalate_compact nonempty, run_eq valid evaluates again ?_⟩
    rw [judge_several _ _ several, List.filter_filter]
    simp only [Bool.and_self]

theorem run_render_of_line_break :
    let broken : Json := .object [(['a'], .string ['x', '\n'])]
    let items : Text := "[\x7b\"a\":\"x\\n\"\x7d,\x7b\"a\":\"y\"\x7d]".toList
    let lines : Text := "\x7b\"a\":\"x\\n\"\x7d \x7b\"a\":\"y\"\x7d [[]]".toList
    let array : Check := ⟨['a', '!', '=', 'y'], some items, true, false, '.'⟩
    let stream : Check := ⟨['a', '!', '=', 'y'], some lines, true, false, '.'⟩
    array.run = .ok (.filtered [broken]) ∧
      ({ array with input := some ((Result.filtered [broken]).render true) } : Check).run =
        .ok (.filtered [broken]) ∧
      stream.run = .ok (.stream [broken, .array [.array []]]) ∧
      ({ stream with
          input := some ((Result.stream [broken, .array [.array []]]).render true) } : Check).run =
        .ok (.stream [broken, .array [.array []]]) := by
  intro broken items lines array stream
  have first : array.run = .ok (.filtered [broken]) := rfl
  have second : stream.run = .ok (.stream [broken, .array [.array []]]) := rfl
  exact ⟨first, (run_render true).1 first, second, ((run_render true).2 second (by decide)).2⟩

end RecordFilter.Check
