import IntScript.Proofs.Token.Page
import IntScript.Proofs.Tree.WellFormed

/-!
# Trees as texts

A text for every tree. Operands and items stand in parentheses. A body that is a block stands on rows of
its own, one column right of its header; any other body goes on with the row of its header. An `else` has
a row of its own, in the column of its `if`, which no other `if` that is still open has.
-/

namespace IntScript

def BinaryOperator.kind : BinaryOperator → TokenKind
  | add => .plus
  | sub => .minus
  | mul => .star
  | div => .slash
  | equal => .equalEqual
  | notEqual => .bangEqual
  | less => .less
  | lessEqual => .lessEqual
  | greater => .greater
  | greaterEqual => .greaterEqual

namespace Glyph

def inParens (gs : List Glyph) : List Glyph := sign .lparen :: (gs ++ [sign .rparen])

def commaSeparated : List (List Glyph) → List Glyph
  | [] => []
  | [gs] => gs
  | gs :: hs :: rest => gs ++ sign .comma :: commaSeparated (hs :: rest)

end Glyph

open Glyph (sign inParens width)

mutual

def Expression.glyphs : Expression → List Glyph
  | .integer value => [.integer value]
  | .text s => [.text s]
  | .var x => [.name x]
  | .assign x e => .name x :: sign .assign :: inParens e.glyphs
  | .negate e => sign .minus :: inParens e.glyphs
  | .binary op left right => inParens left.glyphs ++ sign op.kind :: inParens right.glyphs
  | .call x args => .name x :: inParens (Glyph.commaSeparated (Expression.items args))

def Expression.items : List Expression → List (List Glyph)
  | [] => []
  | e :: es => inParens e.glyphs :: Expression.items es

end

/-- What is written of a statement: the end of a row, and the rows below it. -/
structure Writing where
  here : List Glyph
  below : List Row

def Writing.behind (gs : List Glyph) (w : Writing) : Writing := ⟨gs ++ w.here, w.below⟩

def Writing.rows (column : Nat) (w : Writing) : List Row := ⟨column, w.here⟩ :: w.below

namespace Statement

open Expression (items)

mutual

/-- Writes a statement from a column on. A block goes below its header, which stands in its own column. -/
def write (header column : Nat) : Statement → Writing
  | .expression e => ⟨inParens e.glyphs, []⟩
  | .print es => ⟨sign .print :: Glyph.commaSeparated (items es), []⟩
  | .assign x e => ⟨.name x :: sign .assign :: inParens e.glyphs, []⟩
  | .ifElse condition s t =>
    let opening := sign .ifKeyword :: (inParens condition.glyphs ++ [sign .colon])
    let first := (s.write column (column + width opening)).behind opening
    ⟨first.here, first.below ++ writeElse column t⟩
  | .block ss => ⟨[], writeLines (header + 1) ss⟩
  | .define x parameters s =>
    let opening := sign .defKeyword :: .name x ::
      (inParens (Glyph.commaSeparated (parameters.map fun p => [.name p])) ++ [sign .colon])
    (s.write column (column + width opening)).behind opening
  | .giveBack none => ⟨[sign .returnKeyword], []⟩
  | .giveBack (some e) => ⟨sign .returnKeyword :: inParens e.glyphs, []⟩

def writeElse (column : Nat) : Option Statement → List Row
  | none => []
  | some s =>
    let opening := [sign .elseKeyword, sign .colon]
    ((s.write column (column + width opening)).behind opening).rows column

def writeLines (column : Nat) : List Statement → List Row
  | [] => []
  | s :: ss => (s.write column column).rows column ++ writeLines column ss

end

def text : Statement → String
  | .block ss => String.ofList ((writeLines 0 ss).flatMap Row.chars)
  | s => String.ofList ((writeLines 0 [s]).flatMap Row.chars)

end Statement

section Legible

open Glyph

variable {gs : List Glyph} {e : Expression}

theorem legible_inParens (h : ∀ g ∈ gs, g.Legible) : ∀ g ∈ inParens gs, g.Legible := by
  intro g hg
  simp only [inParens, List.mem_cons, List.mem_append, List.not_mem_nil, or_false] at hg
  rcases hg with rfl | hg | rfl
  · exact legible_sign (by decide)
  · exact h g hg
  · exact legible_sign (by decide)

theorem legible_commaSeparated {gss : List (List Glyph)} (h : ∀ gs ∈ gss, ∀ g ∈ gs, g.Legible) :
    ∀ g ∈ Glyph.commaSeparated gss, g.Legible := by
  induction gss with
  | nil => simp [Glyph.commaSeparated]
  | cons gs gss ih =>
    cases gss with
    | nil => exact h gs (by simp)
    | cons hs rest =>
      intro g hg
      rw [Glyph.commaSeparated, List.mem_append, List.mem_cons] at hg
      rcases hg with hg | rfl | hg
      · exact h gs (by simp) g hg
      · exact legible_sign (by decide)
      · exact ih (fun gs hgs => h gs (List.mem_cons_of_mem _ hgs)) g hg

theorem legible_operator (op : BinaryOperator) : (sign op.kind).Legible := by
  apply legible_sign
  cases op <;> decide

theorem items_eq_map (es : List Expression) :
    Expression.items es = es.map fun e => inParens e.glyphs := by
  induction es with
  | nil => rfl
  | cons e es ih => rw [Expression.items, ih, List.map_cons]

theorem legible_items {es : List Expression} (h : ∀ e ∈ es, ∀ g ∈ e.glyphs, g.Legible) :
    ∀ g ∈ Glyph.commaSeparated (Expression.items es), g.Legible := by
  apply legible_commaSeparated
  intro gs hgs
  rw [items_eq_map] at hgs
  obtain ⟨e, he, rfl⟩ := List.mem_map.1 hgs
  exact legible_inParens (h e he)

theorem legible_glyphs (h : e.WellFormed .written) : ∀ g ∈ e.glyphs, g.Legible := by
  induction h with
  | integer h =>
    rw [Expression.glyphs]
    simpa using legible_integer h
  | text s =>
    rw [Expression.glyphs]
    simpa using legible_text s
  | var h =>
    rw [Expression.glyphs]
    simpa using legible_name h
  | assign h _ ih =>
    rw [Expression.glyphs]
    simpa using ⟨legible_name h, legible_sign (by decide), legible_inParens ih⟩
  | negate _ ih =>
    rw [Expression.glyphs]
    simpa using ⟨legible_sign (by decide), legible_inParens ih⟩
  | binary op _ _ ihleft ihright =>
    rw [Expression.glyphs]
    intro g hg
    rw [List.mem_append, List.mem_cons] at hg
    rcases hg with hg | rfl | hg
    · exact legible_inParens ihleft g hg
    · exact legible_operator op
    · exact legible_inParens ihright g hg
  | call h _ ih =>
    rw [Expression.glyphs]
    simpa using ⟨legible_name h, legible_inParens (legible_items ih)⟩

def Writing.Legible (w : Writing) : Prop :=
  (∀ g ∈ w.here, g.Legible) ∧ ∀ r ∈ w.below, ∀ g ∈ r.glyphs, g.Legible

theorem Writing.Legible.behind {w : Writing} (hw : w.Legible) (h : ∀ g ∈ gs, g.Legible) :
    (w.behind gs).Legible := by
  constructor
  · intro g hg
    rcases List.mem_append.1 hg with hg | hg
    · exact h g hg
    · exact hw.1 g hg
  · exact hw.2

theorem Writing.Legible.rows {w : Writing} (hw : w.Legible) (column : Nat) :
    ∀ r ∈ w.rows column, ∀ g ∈ r.glyphs, g.Legible := by
  intro r hr
  rcases List.mem_cons.1 hr with rfl | hr
  · exact hw.1
  · exact hw.2 r hr

theorem legible_parameters {parameters : List String} (h : ∀ p ∈ parameters, Token.IsName p) :
    ∀ g ∈ inParens (Glyph.commaSeparated (parameters.map fun p => [Glyph.name p])), g.Legible := by
  apply legible_inParens
  apply legible_commaSeparated
  intro gs hgs
  obtain ⟨p, hp, rfl⟩ := List.mem_map.1 hgs
  simpa using legible_name (h p hp)

theorem legible_define {x : String} {xs : List String} (hx : Token.IsName x)
    (hxs : ∀ y ∈ xs, Token.IsName y) : ∀ g ∈ sign .defKeyword :: Glyph.name x ::
      (inParens (Glyph.commaSeparated (xs.map fun y => [Glyph.name y])) ++ [sign .colon]),
      g.Legible := by
  simpa [or_imp, forall_and] using ⟨legible_sign (by decide), legible_name hx,
    legible_parameters hxs, legible_sign (by decide)⟩

theorem legible_if (h : e.WellFormed .written) :
    ∀ g ∈ sign .ifKeyword :: (inParens e.glyphs ++ [sign .colon]), g.Legible := by
  simpa [or_imp, forall_and] using ⟨legible_sign (by decide),
    legible_inParens (legible_glyphs h), legible_sign (by decide)⟩

theorem legible_else : ∀ g ∈ [sign .elseKeyword, sign .colon], g.Legible := by
  simpa using ⟨legible_sign (by decide), legible_sign (by decide)⟩

theorem legible_writeLines {ss : List Statement}
    (h : ∀ s ∈ ss, ∀ header column, (s.write header column).Legible) (column : Nat) :
    ∀ r ∈ Statement.writeLines column ss, ∀ g ∈ r.glyphs, g.Legible := by
  induction ss with
  | nil => simp [Statement.writeLines]
  | cons s ss ih =>
    intro r hr
    rw [Statement.writeLines, List.mem_append] at hr
    rcases hr with hr | hr
    · exact (h s (by simp) column column).rows column r hr
    · exact ih (fun s hs => h s (List.mem_cons_of_mem _ hs)) r hr

theorem legible_write {role : Statement.Role} {s : Statement} (h : s.WellFormed .written role)
    (header column : Nat) : (s.write header column).Legible := by
  induction h generalizing header column with
  | expression h =>
    refine ⟨legible_inParens (legible_glyphs h), ?_⟩
    simp [Statement.write]
  | print h =>
    have hitems := legible_items fun e he => legible_glyphs (h e he)
    simpa [Statement.write, Writing.Legible] using ⟨legible_sign (by decide), hitems⟩
  | assign h hvalue =>
    have hparens := legible_inParens (legible_glyphs hvalue)
    simpa [Statement.write, Writing.Legible] using
      ⟨legible_name h, legible_sign (by decide), hparens⟩
  | @ifElse condition s t h _ _ ihthen ihelse =>
    have hfirst := (ihthen column (column + width
      (sign .ifKeyword :: (inParens condition.glyphs ++ [sign .colon])))).behind (legible_if h)
    have helse : ∀ r ∈ Statement.writeElse column t, ∀ g ∈ r.glyphs, g.Legible := by
      cases t with
      | none => simp [Statement.writeElse]
      | some t =>
        rw [Statement.writeElse]
        apply Writing.Legible.rows
        exact (ihelse t rfl _ _).behind legible_else
    constructor
    · exact hfirst.1
    · intro r hr
      rw [Statement.write, List.mem_append] at hr
      rcases hr with hr | hr
      · exact hfirst.2 r hr
      · exact helse r hr
  | define h hparameters _ _ ih =>
    rw [Statement.write]
    exact (ih _ _).behind (legible_define h hparameters)
  | @giveBack value h =>
    cases value with
    | none => simpa [Statement.write, Writing.Legible] using legible_sign (by decide)
    | some e =>
      have hparens := legible_inParens (legible_glyphs (h e rfl))
      simpa [Statement.write, Writing.Legible] using ⟨legible_sign (by decide), hparens⟩
  | inline _ ih => exact ih header column
  | block _ _ ih =>
    rw [Statement.write]
    exact ⟨by simp, legible_writeLines ih (header + 1)⟩

end Legible

end IntScript
