import Mathlib.Data.List.Lex
import SExprLang.Proofs.RoundTrip

/-!
# The order of the text

A text that goes on moves the place of the next character on, but for the line feed of a carriage return
(`Position.after_before_append`). No token begins with a line feed, so the tokens of a text stand at increasing positions
(`Layout.pairwise_before`). The nodes of a tree, each list before its items, stand at some of these, in the same order
(`Spells.positions_sublist`). So the position of a node of a compiled text says which node it is, and the order of the
positions is that of the paths to the nodes (`positions_increasing`).
-/

namespace SExprLang

open Lexical Syntax Expression

/-! ## Places in order -/

namespace Position

/-- Earlier in the order of the text. -/
def Before (p q : Position) : Prop := Position.le p q = true ∧ p ≠ q

theorem before_iff {p q : Position} : p.Before q ↔ p.line < q.line ∨ p.line = q.line ∧ p.column < q.column := by
  unfold Before Position.le
  simp only [Bool.or_eq_true, Bool.and_eq_true, decide_eq_true_eq, beq_iff_eq, ne_eq, Position.ext_iff]
  omega

theorem Before.trans {p q r : Position} (h : p.Before q) (h' : q.Before r) : p.Before r := by
  rw [before_iff] at h h' ⊢
  omega

/-- Every character moves on but a line feed. -/
theorem after_before_concat {c : Char} (hc : c ≠ '\n') (u : List Char) : (after u).Before (after (u ++ [c])) := by
  rw [before_iff]
  by_cases hb : Text.isLineBreak c = true
  · left
    have hother : c = '\r' ∨ c = '\u2028' ∨ c = '\u2029' := by
      simpa [Text.isLineBreak, hc, or_assoc] using hb
    have hline := line_after_break u hother
    omega
  · right
    rw [after_concat u (Bool.eq_false_iff.2 hb)]
    have htab := nextTabStop_gt (after u).column
    refine ⟨rfl, ?_⟩
    show (after u).column < columnAfter (after u).column c
    unfold columnAfter
    split <;> omega

/-- A line feed moves on, or it belongs to a carriage return and changes nothing. -/
theorem after_lineFeed (u : List Char) :
    after (u ++ ['\n']) = after u ∨ (after u).Before (after (u ++ ['\n'])) := by
  have hline := line_after_lineFeed u
  by_cases hr : u.getLast? = some '\r'
  · left
    rw [if_pos hr] at hline
    obtain ⟨v, rfl⟩ := List.getLast?_eq_some_iff.1 hr
    have hcol := column_after_break (v ++ ['\r']) (c := '\n') rfl
    have hone := column_after_break v (c := '\r') rfl
    exact Position.ext hline (hcol.trans hone.symm)
  · right
    rw [if_neg hr] at hline
    rw [before_iff]
    omega

/-- No text moves back. -/
theorem after_append (u v : List Char) : after (u ++ v) = after u ∨ (after u).Before (after (u ++ v)) := by
  induction v generalizing u with
  | nil => exact Or.inl (by rw [List.append_nil])
  | cons c v ih =>
    have hc : after (u ++ [c]) = after u ∨ (after u).Before (after (u ++ [c])) := by
      by_cases hn : c = '\n'
      · rw [hn]
        exact after_lineFeed u
      · exact Or.inr (after_before_concat hn u)
    have hv := ih (u ++ [c])
    rw [List.append_assoc, List.singleton_append] at hv
    rcases hc with hc | hc
    · rwa [hc] at hv
    · rcases hv with hv | hv
      · exact Or.inr (hv ▸ hc)
      · exact Or.inr (hc.trans hv)

/-- A text that does not begin with a line feed moves on. -/
theorem after_before_append {c : Char} (hc : c ≠ '\n') (u v : List Char) :
    (after u).Before (after (u ++ c :: v)) := by
  have hfirst := after_before_concat hc u
  have hrest := after_append (u ++ [c]) v
  rw [List.append_assoc, List.singleton_append] at hrest
  rcases hrest with hrest | hrest
  · exact hrest ▸ hfirst
  · exact hfirst.trans hrest

end Position

/-! ## Tokens -/

/-- **The tokens of a layout stand at increasing positions.** -/
theorem Lexical.Layout.pairwise_before {before gap : List Char} {pieces : List Piece} {tokens : List Token}
    (h : Layout before gap pieces tokens) : tokens.Pairwise fun t t' => t.position.Before t'.position := by
  induction h with
  | last _ => exact .nil
  | @token before gap piece pieces kind tokens _ hl _ hrest ih =>
    refine .cons ?_ ih
    intro later hmem
    obtain ⟨i, hi⟩ := List.getElem?_of_mem hmem
    obtain ⟨_, _, _, hposition⟩ := hrest.piece_of_token hi
    obtain ⟨c, lexeme, hlexeme, hc⟩ := hl.head
    have hfeed : c ≠ '\n' := by
      rintro rfl
      exact hc.1 (Or.inr (by decide))
    rw [hposition, hlexeme, List.append_assoc]
    exact Position.after_before_append hfeed _ _

/-! ## Nodes -/

namespace Expression

theorem nodesOfItems_eq_flatMap (depth : Nat) (items : List Expression) :
    nodesOfItems depth items = items.flatMap (nodesFrom depth) := by
  induction items with
  | nil => rfl
  | cons e rest ih => rw [nodesOfItems, ih, List.flatMap_cons]

/-- A path into a tree goes through an item of a list. -/
theorem descend?_cons_eq_some {e n : Expression} {i : Nat} {path : List Nat} (h : e.descend? (i :: path) = some n) :
    ∃ items p item, e = list items p ∧ items[i]? = some item ∧ item.descend? path = some n := by
  simp only [descend?, Option.bind_eq_bind, Option.bind_eq_some_iff] at h
  obtain ⟨items, hitems, item, hitem, hn⟩ := h
  cases e with
  | list items' p =>
    obtain rfl := Option.some.inj hitems
    exact ⟨items', p, item, rfl, hitem, hn⟩
  | _ => cases hitems

/-- Where a path leads to is one of the nodes. -/
theorem exists_mem_nodesFrom {e n : Expression} {path : List Nat} (h : e.descend? path = some n) (depth : Nat) :
    ∃ d, (d, n) ∈ e.nodesFrom depth := by
  induction path generalizing e depth with
  | nil =>
    obtain rfl := Option.some.inj h
    refine ⟨depth, ?_⟩
    cases e <;> simp [nodesFrom]
  | cons i path ih =>
    obtain ⟨items, p, item, rfl, hitem, hn⟩ := descend?_cons_eq_some h
    obtain ⟨d, hd⟩ := ih hn (depth + 1)
    refine ⟨d, ?_⟩
    rw [nodesFrom, nodesOfItems_eq_flatMap]
    exact List.mem_cons_of_mem _ (List.mem_flatMap.2 ⟨item, List.mem_of_getElem? hitem, hd⟩)

end Expression

/-- An atom is its only node and stands where its token does. -/
theorem nodesFrom_of_atom? {token : Token} {e : Expression} (h : token.atom? = some e) (depth : Nat) :
    e.nodesFrom depth = [(depth, e)] ∧ e.position = token.position := by
  unfold Token.atom? at h
  split at h <;> cases h <;> exact ⟨rfl, rfl⟩

/-- The nodes of expressions stand at the positions of their tokens in order, closing parentheses left out. -/
theorem Syntax.Spells.positions_sublist {es : List Expression} {ts : List Token} (h : Spells es ts) (depth : Nat) :
    ((nodesOfItems depth es).map (·.2.position)).Sublist (ts.map (·.position)) := by
  induction h generalizing depth with
  | nil => exact .slnil
  | atom ha _ ih =>
    obtain ⟨hnodes, hposition⟩ := nodesFrom_of_atom? ha depth
    rw [nodesOfItems, hnodes, List.singleton_append, List.map_cons, List.map_cons, hposition]
    exact (ih depth).cons_cons _
  | list _ _ _ _ ih₁ ih₂ =>
    rw [nodesOfItems, nodesFrom, List.cons_append, List.map_cons, List.map_append, List.map_cons, List.map_append,
      List.map_cons]
    exact ((ih₁ (depth + 1)).append ((ih₂ depth).cons _)).cons_cons _

/-! ## Paths -/

/-- If the nodes stand in order, then so do any two of them whose paths are in order: a path comes before its
continuations, and where two paths part, the one to the earlier item comes first. -/
theorem before_of_path_lt {e n n' : Expression} {depth : Nat} {path path' : List Nat}
    (h : (e.nodesFrom depth).Pairwise fun a b => a.2.position.Before b.2.position) (hn : e.descend? path = some n)
    (hn' : e.descend? path' = some n') (hlt : path < path') : n.position.Before n'.position := by
  induction path generalizing e depth path' with
  | nil =>
    cases path' with
    | nil => exact absurd hlt (List.lt_irrefl _)
    | cons j path' =>
      obtain rfl := Option.some.inj hn
      obtain ⟨items, p, item, rfl, hitem, hrest⟩ := descend?_cons_eq_some hn'
      obtain ⟨d, hd⟩ := exists_mem_nodesFrom hrest (depth + 1)
      rw [nodesFrom, nodesOfItems_eq_flatMap, List.pairwise_cons] at h
      exact h.1 (d, n') (List.mem_flatMap.2 ⟨item, List.mem_of_getElem? hitem, hd⟩)
  | cons i path ih =>
    cases path' with
    | nil => exact absurd hlt (List.not_lt_nil _)
    | cons j path' =>
      obtain ⟨items, p, item, rfl, hitem, hrest⟩ := descend?_cons_eq_some hn
      obtain ⟨_, _, item', heq, hitem', hrest'⟩ := descend?_cons_eq_some hn'
      obtain ⟨rfl, rfl⟩ := Expression.list.inj heq
      rw [nodesFrom, nodesOfItems_eq_flatMap, List.pairwise_cons, List.pairwise_flatMap] at h
      obtain ⟨_, hinside, hacross⟩ := h
      rcases List.cons_lt_cons_iff.1 hlt with hij | ⟨rfl, hpath⟩
      · obtain ⟨hi, rfl⟩ := List.getElem?_eq_some_iff.1 hitem
        obtain ⟨hj, rfl⟩ := List.getElem?_eq_some_iff.1 hitem'
        obtain ⟨d, hd⟩ := exists_mem_nodesFrom hrest (depth + 1)
        obtain ⟨d', hd'⟩ := exists_mem_nodesFrom hrest' (depth + 1)
        exact List.pairwise_iff_getElem.1 hacross i j hi hj hij (d, n) hd (d', n') hd'
      · obtain rfl := Option.some.inj (hitem.symm.trans hitem')
        exact ih (hinside item (List.mem_of_getElem? hitem)) hrest hrest' hpath

/-! ## The main result -/

/-- The nodes of a compiled text stand in order. -/
theorem compile_pairwise_before {text : String} {e : Expression} (h : compile text = .ok e) :
    (e.nodes.map (·.2.position)).Pairwise Position.Before := by
  obtain ⟨ts, hscan, hspells⟩ := compile_eq_ok_iff.1 h
  obtain ⟨_, _, _, hlayout⟩ := scanChars_eq_ok_iff.1 hscan
  have hsublist := hspells.positions_sublist 0
  rw [nodesOfItems, nodesOfItems, List.append_nil] at hsublist
  exact (List.pairwise_map.2 hlayout.pairwise_before).sublist hsublist

/-- **Positions put the tokens and the nodes of a text in order and tell the nodes apart.** Nodes are listed with every
list before its items, which is the order of the paths that lead to them. -/
theorem positions_increasing (text : String) :
    (∀ tokens, Token.scan text = .ok tokens → (tokens.map (·.position)).Pairwise Position.Before) ∧
    (∀ e, compile text = .ok e → (e.nodes.map (·.2.position)).Pairwise Position.Before ∧
      ∀ path path' n n', e.descend? path = some n → e.descend? path' = some n' →
        (path < path' → n.position.Before n'.position) ∧ (n.position = n'.position → path = path')) := by
  refine ⟨?_, ?_⟩
  · intro tokens hscan
    obtain ⟨_, _, _, hlayout⟩ := scanChars_eq_ok_iff.1 hscan
    exact List.pairwise_map.2 hlayout.pairwise_before
  · intro e he
    have hnodes := compile_pairwise_before he
    refine ⟨hnodes, ?_⟩
    intro path path' n n' hn hn'
    have hbefore := before_of_path_lt (List.pairwise_map.1 hnodes) hn hn'
    have hafter := before_of_path_lt (List.pairwise_map.1 hnodes) hn' hn
    refine ⟨hbefore, ?_⟩
    intro hsame
    rcases lt_trichotomy path path' with hlt | heq | hgt
    · exact absurd hsame (hbefore hlt).2
    · exact heq
    · exact absurd hsame.symm (hafter hgt).2

end SExprLang
