import RecordFilter.Connective
import RecordFilter.Predicate

/-! Filters: trees of predicates joined by connectives. The walks loop along the right spine or
over a list of pending subtrees, so that long chains take no more stack than short ones; a lemma
for each says what it makes of a leaf and of a join. -/

namespace RecordFilter

inductive Filter where
  | leaf (predicate : Predicate)
  | join (connective : Connective) (left right : Filter)
  deriving DecidableEq

namespace Filter

def leaf? : Filter → Option Predicate
  | leaf p => some p
  | join .. => none

def nodes : Filter → Nat
  | leaf _ => 1
  | join _ l r => l.nodes + r.nodes + 1

def pendingNodes : List Filter → Nat
  | [] => 0
  | f :: pending => f.nodes + pendingNodes pending

def countPending (count : Nat) : List Filter → Nat
  | [] => count
  | leaf _ :: pending => countPending (count + 1) pending
  | join _ l r :: pending => countPending count (l :: r :: pending)
  termination_by pending => pendingNodes pending
  decreasing_by
    · simp [pendingNodes, nodes]
    · simp [pendingNodes, nodes]
      omega

def predicateCount (f : Filter) : Nat := countPending 0 [f]

theorem countPending_add (count extra : Nat) (pending : List Filter) :
    countPending (count + extra) pending = countPending count pending + extra := by
  fun_induction countPending count pending with
  | case1 count => simp [countPending]
  | case2 count p pending ih =>
    rw [countPending, ← ih]
    congr 1
    omega
  | case3 count c l r pending ih => rw [countPending, ih]

theorem countPending_cons (count : Nat) (f : Filter) (pending : List Filter) :
    countPending count (f :: pending) = countPending count pending + f.predicateCount := by
  induction f generalizing count pending with
  | leaf p => rw [countPending, countPending_add, predicateCount, countPending, countPending]
  | join c l r ihl ihr =>
    have whole : (join c l r).predicateCount = l.predicateCount + r.predicateCount := by
      rw [predicateCount, countPending, ihl, ihr, countPending]
      omega
    rw [countPending, ihl, ihr, whole]
    omega

theorem predicateCount_leaf (p : Predicate) : (leaf p).predicateCount = 1 := by
  rw [predicateCount, countPending, countPending]

theorem predicateCount_join (c : Connective) (l r : Filter) :
    (join c l r).predicateCount = l.predicateCount + r.predicateCount := by
  rw [predicateCount, countPending, countPending_cons, countPending_cons, countPending]
  omega

def writeAfter (written : List Text) : Filter → List Text
  | leaf p => p.text :: written
  | join c l r => r.writeAfter (c.symbol :: l.writeAfter written)

/-- The filter in the notation it is read from. There is no grouping, so the nesting of a tree that
was not read may be lost. -/
def text (f : Filter) : Text := (f.writeAfter []).reverse.flatten

theorem writeAfter_append (f : Filter) (written earlier : List Text) :
    f.writeAfter (written ++ earlier) = f.writeAfter written ++ earlier := by
  induction f generalizing written with
  | leaf p => rfl
  | join c l r ihl ihr => rw [writeAfter, writeAfter, ihl, ← List.cons_append, ihr]

theorem text_leaf (p : Predicate) : (leaf p).text = p.text := by simp [text, writeAfter]

theorem text_join (c : Connective) (l r : Filter) :
    (join c l r).text = l.text ++ c.symbol ++ r.text := by
  have split := writeAfter_append r [] (c.symbol :: l.writeAfter [])
  rw [List.nil_append] at split
  simp [text, writeAfter, split]

/-- Evaluation under a verdict on each predicate. The right side is looked at only where the left
one does not decide. -/
def eval (verdict : Predicate → Bool) : Filter → Bool
  | leaf p => verdict p
  | join .and l r => if l.eval verdict then r.eval verdict else false
  | join .or l r => if l.eval verdict then true else r.eval verdict

theorem eval_and (verdict : Predicate → Bool) (l r : Filter) :
    (join .and l r).eval verdict = (l.eval verdict && r.eval verdict) := by
  cases h : l.eval verdict <;> simp [eval, h]

theorem eval_or (verdict : Predicate → Bool) (l r : Filter) :
    (join .or l r).eval verdict = (l.eval verdict || r.eval verdict) := by
  cases h : l.eval verdict <;> simp [eval, h]

end Filter
end RecordFilter
