import Mathlib.Data.List.Forall2
import SExprLang.Expression

/-!
# Trees without places

`Expression.unplaced` forgets where the nodes of a tree stand and keeps everything else, so that two trees are equal up to
positions iff they are equal without places.
-/

namespace SExprLang.Expression

mutual

/-- The tree with every node at the start of the text. -/
def unplaced : Expression → Expression
  | symbol name _ => symbol name ⟨1, 1⟩
  | number value lexeme _ => number value lexeme ⟨1, 1⟩
  | string value _ => string value ⟨1, 1⟩
  | list items _ => list (unplacedItems items) ⟨1, 1⟩

/-- A sequence of trees with every node at the start of the text. -/
def unplacedItems : List Expression → List Expression
  | [] => []
  | e :: rest => e.unplaced :: unplacedItems rest

end

theorem unplacedItems_append : ∀ es fs : List Expression,
    unplacedItems (es ++ fs) = unplacedItems es ++ unplacedItems fs
  | [], _ => rfl
  | e :: es, fs => congrArg (e.unplaced :: ·) (unplacedItems_append es fs)

mutual

/-- Positions are not rendered. -/
theorem render_unplaced : ∀ e : Expression, e.unplaced.render = e.render
  | symbol _ _ | number _ _ _ | string _ _ => rfl
  | list items _ => congrArg (fun text => "(" ++ text ++ ")") (renderItems_unplaced items)

theorem renderItems_unplaced : ∀ es : List Expression, renderItems (unplacedItems es) = renderItems es
  | [] => rfl
  | [e] => render_unplaced e
  | e :: f :: rest =>
    congrArg₂ (fun a b => a ++ " " ++ b) (render_unplaced e) (renderItems_unplaced (f :: rest))

end

/-- Lists of trees are equal up to positions if they are so item by item. -/
theorem unplacedItems_eq {es fs : List Expression} (h : unplacedItems es = unplacedItems fs) :
    List.Forall₂ (fun e f => e.unplaced = f.unplaced) es fs := by
  induction es generalizing fs with
  | nil =>
    cases fs with
    | nil => exact .nil
    | cons f fs => cases h
  | cons e es ih =>
    cases fs with
    | nil => cases h
    | cons f fs =>
      obtain ⟨hfirst, hrest⟩ := List.cons.inj h
      exact .cons hfirst (ih hrest)

theorem render_eq_of_unplaced {e f : Expression} (h : e.unplaced = f.unplaced) : e.render = f.render := by
  rw [← render_unplaced e, h, render_unplaced]

end SExprLang.Expression
