import RecordFilter.Check
import RecordFilter.Proofs.Json.Joined

/-! The three ways to hand records to a check: one alone, several in an array, several one after
another. A record is judged alike in all of them. -/

namespace RecordFilter

def Document.depth {ν : Type} : Document ν → Nat :=
  Document.fold {
    null := 0
    boolean := fun _ => 0
    number := fun _ => 0
    string := fun _ => 0
    array := fun depths => depths.foldr max 0 + 1
    object := fun depths => (depths.map Prod.snd).foldr max 0 + 1 }

namespace Check

theorem run_eq {check : Check} {filter : Filter} (valid : Filter.parse check.filter = .ok filter)
    (evaluates : check.syntaxOnly = false) {text : Text} {documents : List Json}
    (read : Json.parseStream text = .ok documents) {result : Result}
    (judged : judge filter check.separator documents = some result) :
    ({ check with input := some text } : Check).run = .ok result := by
  simp only [run, valid, evaluates, read, Except.mapError, bind, Except.bind, judged]
  rfl

theorem judge_several (filter : Filter) (separator : Char) {documents : List Json}
    (several : 2 ≤ documents.length) :
    judge filter separator documents =
      some (.stream (documents.filter fun d => filter.holds d separator)) := by
  match documents, several with
  | first :: second :: rest, _ =>
    cases first <;> rfl

def single (filter : Filter) (separator : Char) : Json → Result
  | .array items => .filtered (items.filter fun d => filter.holds d separator)
  | document => .matched (filter.holds document separator)

theorem judge_single (filter : Filter) (separator : Char) (d : Json) :
    judge filter separator [d] = some (single filter separator d) := by
  cases d <;> rfl

/-- Documents between the brackets of an array are filtered, unless their brackets and those of the
array nest too deep together; one after another they are filtered as a stream; and one alone is
matched, or filtered if it is an array itself. -/
theorem run_modes {check : Check} {filter : Filter} (valid : Filter.parse check.filter = .ok filter)
    (evaluates : check.syntaxOnly = false) {texts : List Text} {documents : List Json}
    (read : List.Forall₂ (fun text d => Json.parse text = .ok d) texts documents) :
    ((∀ text ∈ texts, Json.nesting text ≤ 126) →
      ({ check with input := some ('[' :: List.intercalate [','] texts ++ [']']) } : Check).run =
        .ok (.filtered (documents.filter fun d => filter.holds d check.separator))) ∧
    (2 ≤ texts.length →
      ({ check with input := some (List.intercalate ['\n'] texts) } : Check).run =
        .ok (.stream (documents.filter fun d => filter.holds d check.separator))) ∧
    ∀ text d, Json.parse text = .ok d →
      ({ check with input := some text } : Check).run = .ok (single filter check.separator d) := by
  refine ⟨fun shallow => ?_, fun several => ?_, fun text d alone => ?_⟩
  · have room : ∀ text ∈ texts, Json.nesting text + 1 ≤ Json.Reader.maxDepth := fun text member =>
      Nat.succ_le_succ (shallow text member)
    exact run_eq valid evaluates (Json.parseStream_items read room) rfl
  · have nonempty : texts ≠ [] := by
      rintro rfl
      cases several
    refine run_eq valid evaluates (Json.parseStream_lines read nonempty) (judge_several _ _ ?_)
    rwa [← read.length_eq]
  · exact run_eq valid evaluates (Json.parseStream_of_parse alone) (judge_single _ _ d)

theorem run_modes_of_three :
    let check : Check := ⟨['>', '='], none, false, false, '.'⟩
    let filter : Filter := .leaf ⟨[], .atLeast, [], nofun⟩
    let texts : List Text := [['1'], [' ', '"', ']', '"'], ['[', '[', ']', ']', '\n']]
    let documents : List Json :=
      [.number (.integer 1 (by decide)), .string [']'], .array [.array []]]
    Filter.parse check.filter = .ok filter ∧ check.syntaxOnly = false ∧
      List.Forall₂ (fun text d => Json.parse text = .ok d) texts documents ∧
      ({ check with input := some ('[' :: List.intercalate [','] texts ++ [']']) } : Check).run =
        .ok (.filtered (documents.filter fun d => filter.holds d check.separator)) := by
  intro check filter texts documents
  have valid : Filter.parse check.filter = .ok filter := by decide +kernel
  have read : List.Forall₂ (fun text d => Json.parse text = .ok d) texts documents :=
    .cons rfl (.cons rfl (.cons rfl .nil))
  exact ⟨valid, rfl, read, (run_modes valid rfl read).1 (by decide)⟩

def hidden : Text :=
  ['\x7b', '"', 'a', '"', ':'] ++ List.replicate 126 '[' ++ List.replicate 126 ']' ++
    [',', '"', 'a', '"', ':', '1', '\x7d']

/-- The document does not tell how deep its text nests. -/
theorem run_items_of_hidden :
    ¬∀ (check : Check) (filter : Filter) (text : Text) (d : Json),
      Filter.parse check.filter = .ok filter → check.syntaxOnly = false → Json.parse text = .ok d →
        d.depth ≤ 126 →
          ({ check with input := some ('[' :: text ++ [']']) } : Check).run =
            .ok (.filtered ([d].filter fun d => filter.holds d check.separator)) := by
  intro always
  obtain ⟨d, read, depth⟩ : ∃ d, Json.parse hidden = .ok d ∧ d.depth ≤ 126 := by
    have small : (match Json.parse hidden with
        | .ok d => decide (d.depth ≤ 126)
        | .error _ => false) = true := by decide +kernel
    cases read : Json.parse hidden with
    | error defect =>
      rw [read] at small
      cases small
    | ok d =>
      rw [read] at small
      exact ⟨d, rfl, of_decide_eq_true small⟩
  have refused : (match (⟨['>', '='], some ('[' :: hidden ++ [']']), false, false, '.'⟩ : Check).run with
      | .ok _ => false
      | .error _ => true) = true := by decide +kernel
  have accepted := always ⟨['>', '='], none, false, false, '.'⟩ (.leaf ⟨[], .atLeast, [], nofun⟩)
    hidden d (by decide +kernel) rfl read depth
  simp only at accepted
  rw [accepted] at refused
  cases refused

end Check
end RecordFilter
