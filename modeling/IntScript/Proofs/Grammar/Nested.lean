import IntScript.Proofs.Grammar.KeptLines
import IntScript.Proofs.Grammar.Opened
import IntScript.Proofs.Token.Positions
import Mathlib

/-!
# Blocks inside blocks

A block is further right than its header. It is further right than the blocks around it too, as long as no
header in the middle of a line stands left of where the line begins. Then no line in the column of one of
those is read in it. Only a string over several lines can put a header there, or a comma at the front of a
line (`tidy_of_tokenize`).
-/

namespace IntScript

namespace Grammar

open IntScript.Action

namespace Trail

/-- The trail is that of tokens taken one after the other, and what it records is sound. -/
structure Sound (all : List Token) (s : Trail) : Prop where
  tokens : (s.read.map Taking.token).reverse ++ s.cursor.ahead = all
  previous : s.cursor.previous = s.read.head?.map Taking.token
  record : SoundRecord s.opened s.read
  opened : ∀ o ∈ s.opened, o.Sound ∧ o.past <:+ s.read

structure Extends (s s' : Trail) : Prop where
  read : s.read <:+ s'.read
  opened : s.opened ⊆ s'.opened

/-- The block of the innermost statement has been opened in the others, unless there are none. -/
def Known (frames : List Frame) (s : Trail) : Prop :=
  ∀ f outer, frames = f :: outer → outer ≠ [] →
    ∃ o ∈ s.opened, o.Sound ∧ o.column = f.column ∧ o.around = outer ∧ o.past <:+ s.read

def On (frames : List Frame) (s : Trail) : Prop := ∃ x ∈ s.read.head?, x.frames = frames

/-- A statement may begin here: on the line of the one that it belongs to, on a line of its block, or in vain. -/
def Starts (frames : List Frame) (s : Trail) : Prop :=
  s.On frames ∧ s.cursor.startsLine = false ∨
    s.cursor.startsLine = true ∧ (∀ f ∈ frames.head?, s.cursor.position.column = f.column) ∨
    s.cursor.nextIs .elseKeyword = true

def Ends (frames : List Frame) (s : Trail) : Prop :=
  s.cursor.endsStatement = true ∨ s.On frames ∧ s.cursor.nextIs .elseKeyword = true

variable {all ts us : List Token} {t : Token} {frames : List Frame} {s s' s'' : Trail} {c : Cursor}

theorem Extends.refl (s : Trail) : s.Extends s := ⟨List.suffix_refl _, fun _ h => h⟩

theorem Extends.trans (h : s.Extends s') (h' : s'.Extends s'') : s.Extends s'' :=
  ⟨h.read.trans h'.read, fun _ ho => h'.opened (h.opened ho)⟩

theorem Known.extends (h : s.Known frames) (hs : s.Extends s') : s'.Known frames := by
  intro f outer hframes hne
  obtain ⟨o, ho, hsound, hcolumn, haround, hpast⟩ := h f outer hframes hne
  exact ⟨o, hs.opened ho, hsound, hcolumn, haround, hpast.trans hs.read⟩

theorem takeTo_passes (h : s.cursor.Passes ts c) :
    s.takeTo frames c = ⟨c, (ts.map (⟨·, frames⟩)).reverse ++ s.read, s.opened⟩ := by
  have hsize : s.cursor.size - c.size = ts.length := by
    rw [Cursor.size, Cursor.size, h.ahead, List.length_append, Nat.add_sub_cancel]
  rw [takeTo, hsize, h.ahead, List.take_left]

theorem extends_takeTo (frames : List Frame) (h : s.cursor.Passes ts c) :
    s.Extends (s.takeTo frames c) := by
  rw [takeTo_passes h]
  exact ⟨List.suffix_append _ _, fun _ ho => ho⟩

theorem begins_eq (h : s.Sound all) (hahead : s.cursor.ahead = t :: ts) :
    begins s.read t = s.cursor.startsLine := by
  rw [Cursor.startsLine, h.previous, Cursor.position, hahead, begins]
  cases s.read.head? <;> rfl

theorem Sound.take (h : s.Sound all) (hknown : s.Known frames) (hahead : s.cursor.ahead = t :: ts)
    (hgoes : s.cursor.startsLine = false ∨ t.kind = .comma → s.On frames)
    (hfront : s.cursor.startsLine = true → t.kind ≠ .comma → ∀ f outer, frames = f :: outer →
      t.span.column = f.column ∨ ∃ y ∈ s.read, y.frames = frames ∧ opensBody y.token.kind = true ∧
        y.token.span.column = t.span.column) :
    Sound all ⟨⟨some t, ts, s.cursor.finish⟩, ⟨t, frames⟩ :: s.read, s.opened⟩ := by
  have hbegins := begins_eq h hahead
  refine ⟨?_, rfl, ?_, fun o ho => ?_⟩
  · rw [← h.tokens, hahead]
    simp
  · intro x past hx
    rcases List.suffix_cons_iff.1 hx with heq | hx
    · cases heq
      exact ⟨fun hline => hgoes (hbegins ▸ hline), fun hline => hfront (hbegins ▸ hline), hknown⟩
    · exact h.record x past hx
  · obtain ⟨hsound, hpast⟩ := h.opened o ho
    exact ⟨hsound, hpast.trans (List.suffix_cons _ _)⟩

theorem Sound.takeOnLine (h : s.Sound all) (hknown : s.Known frames) (hon : s.On frames)
    (hpass : s.cursor.Passes ts c) (hline : OnLine s.cursor.previous ts) :
    (s.takeTo frames c).Sound all ∧ (s.takeTo frames c).On frames := by
  rw [takeTo_passes hpass]
  induction ts generalizing s with
  | nil =>
    obtain rfl := hpass.eq
    exact ⟨h, hon⟩
  | cons t ts ih =>
    have ⟨x, hx, _⟩ := hon
    have hprevious : s.cursor.previous = some x.token := by
      rw [h.previous, Option.mem_def.1 hx]
      rfl
    rw [hprevious] at hline
    have hfront (hstarts : s.cursor.startsLine = true) (hcomma : t.kind ≠ .comma) : False := by
      rw [Cursor.startsLine, hprevious, Cursor.position, hpass.ahead] at hstarts
      exact hcomma (hline.1.resolve_left (Nat.not_le.2 (of_decide_eq_true hstarts)))
    have hnext := h.take hknown hpass.ahead (fun _ => hon) fun hs hc => (hfront hs hc).elim
    have hbehind := ih hnext (hknown.extends ⟨List.suffix_cons _ _, fun _ ho => ho⟩)
      ⟨_, rfl, rfl⟩ ⟨rfl, hpass.previous, hpass.finish⟩ hline.2
    simpa using hbehind

theorem Sound.takeOwn (h : s.Sound all) (hknown : s.Known frames) (hstarts : s.Starts frames)
    (hkind : t.kind ≠ .comma ∧ t.kind ≠ .elseKeyword) (hpass : s.cursor.Passes (t :: ts) c)
    (hline : OnLine (some t) ts) : (s.takeTo frames c).Sound all ∧ (s.takeTo frames c).On frames := by
  have hposition : s.cursor.position.column = t.span.column := by
    rw [Cursor.position, hpass.ahead]
    rfl
  have hfirst := h.take hknown hpass.ahead (fun hgoes => ?_) fun hbegins _ f outer hframes => ?_
  · have hrest : Cursor.Passes ⟨some t, ts ++ c.ahead, s.cursor.finish⟩ ts c :=
      ⟨rfl, hpass.previous, hpass.finish⟩
    have hbehind := hfirst.takeOnLine (hknown.extends ⟨List.suffix_cons _ _, fun _ ho => ho⟩)
      ⟨_, rfl, rfl⟩ hrest hline
    rw [takeTo_passes hrest] at hbehind
    rw [takeTo_passes hpass]
    simpa using hbehind
  · have hgoes := hgoes.resolve_right hkind.1
    rcases hstarts with ⟨hon, -⟩ | ⟨hbegins, -⟩ | helse
    · exact hon
    · rw [hgoes] at hbegins
      cases hbegins
    · rw [Cursor.nextIs, hpass.ahead] at helse
      exact absurd (of_decide_eq_true helse) hkind.2
  · rcases hstarts with ⟨-, hgoes⟩ | ⟨-, hcolumn⟩ | helse
    · rw [hgoes] at hbegins
      cases hbegins
    · rw [hframes, hposition] at hcolumn
      exact .inl (hcolumn f rfl)
    · rw [Cursor.nextIs, hpass.ahead] at helse
      exact absurd (of_decide_eq_true helse) hkind.2

end Trail

namespace Tracer

open IntScript.Grammar.Cursor IntScript.Grammar.Parser IntScript.Grammar.Trail

variable {α β : Type} {all : List Token} {pre pre' : Trail → Prop} {mid : β → Trail → Prop}
  {post post' : α → Trail → Prop} {q : Tracer α} {p : Parser α} {frames : List Frame} {header : Token}
  {column : Nat}

/-- The record goes on and stays sound, whether reading fails or not. -/
def Records (all : List Token) (pre : Trail → Prop) (q : Tracer α) (post : α → Trail → Prop) : Prop :=
  ∀ s, s.Sound all → pre s → ∀ r s', q s = some (r, s') →
    s'.Sound all ∧ s.Extends s' ∧ ∀ a, r = .ok a → post a s'

theorem Records.conseq (h : Records all pre q post) (hpre : ∀ s, pre' s → pre s)
    (hpost : ∀ a s, post a s → post' a s) : Records all pre' q post' := by
  intro s hs hp r s' hq
  obtain ⟨hsound, hextends, hok⟩ := h s hs (hpre s hp) r s' hq
  exact ⟨hsound, hextends, fun a ha => hpost a s' (hok a ha)⟩

theorem Records.frame {fact : Trail → Prop} (h : Records all pre q post)
    (hfact : ∀ s s', s.Extends s' → fact s → fact s') :
    Records all (fun s => pre s ∧ fact s) q fun a s => post a s ∧ fact s := by
  rintro s hs ⟨hp, hf⟩ r s' hq
  obtain ⟨hsound, hextends, hok⟩ := h s hs hp r s' hq
  exact ⟨hsound, hextends, fun a ha => ⟨hok a ha, hfact s s' hextends hf⟩⟩

theorem records_of_fact {fact : Prop} (h : fact → Records all pre q post) :
    Records all (fun s => pre s ∧ fact) q post :=
  fun s hs ⟨hp, hfact⟩ => h hfact s hs hp

theorem records_pure {a : α} (h : ∀ s, pre s → post a s) : Records all pre (pure a) post := by
  intro s hs hp r s' hq
  cases hq
  refine ⟨hs, .refl s, ?_⟩
  rintro _ ⟨⟩
  exact h s hp

theorem records_stuck : Records all pre (stuck : Tracer α) post := by
  intro s hs hp r s' hq
  cases hq

theorem records_bind {q : Tracer β} {f : β → Tracer α} (hq : Records all pre q mid)
    (hf : ∀ b, Records all (mid b) (f b) post) : Records all pre (q >>= f) post := by
  intro s hs hp r s' hrun
  rcases bind_eq_some_iff.1 hrun with ⟨e, he, rfl⟩ | ⟨b, s₁, hb, hr⟩
  · obtain ⟨hsound, hextends, -⟩ := hq s hs hp _ s' he
    exact ⟨hsound, hextends, nofun⟩
  · obtain ⟨hsound, hextends, hok⟩ := hq s hs hp _ s₁ hb
    obtain ⟨hsound', hextends', hok'⟩ := hf b s₁ hsound (hok b rfl) r s' hr
    exact ⟨hsound', hextends.trans hextends', hok'⟩

theorem records_read {g : Trail → β} {f : β → Tracer α}
    (h : ∀ b, Records all (fun s => pre s ∧ g s = b) (f b) post) :
    Records all pre (Action.read g >>= f) post :=
  fun s hs hp r s' hq => h (g s) s hs ⟨hp, rfl⟩ r s' hq

theorem records_lift (h : ∀ s, s.Sound all → pre s → ∀ r c, p s.cursor = some (r, c) →
    (s.takeTo frames c).Sound all ∧ s.Extends (s.takeTo frames c) ∧
      ∀ a, r = .ok a → post a (s.takeTo frames c)) : Records all pre (lift frames p) post := by
  intro s hs hp r s' hq
  obtain ⟨⟨r, c⟩, hread, heq⟩ := Option.map_eq_some_iff.1 hq
  cases heq
  exact h s hs hp r c hread

theorem records_stalls (h : ∀ c, Stalls p c) : Records all pre (lift frames p) post := by
  refine records_lift fun s hs _ r c hread => ?_
  obtain ⟨rfl, e, rfl⟩ := h _ r c hread
  rw [takeTo_passes (.refl _)]
  exact ⟨hs, .refl s, nofun⟩

def Headed (frames : List Frame) (header : Token) (s : Trail) : Prop :=
  s.Known frames ∧ ⟨header, frames⟩ ∈ s.read

theorem Headed.extends {s s' : Trail} (hs : s.Extends s') (h : Headed frames header s) :
    Headed frames header s' :=
  ⟨h.1.extends hs, hs.read.subset h.2⟩

def InHeader (frames : List Frame) (header : Token) (s : Trail) : Prop :=
  s.On frames ∧ Headed frames header s

theorem records_keepsLine (h : ∀ c, KeepsLine p c) :
    Records all (InHeader frames header) (lift frames p) fun _ => InHeader frames header := by
  refine records_lift fun s hs ⟨hon, hheaded⟩ r c hread => ?_
  obtain ⟨ts, hpass, hline⟩ := h _ r c hread
  obtain ⟨hsound, hon'⟩ := hs.takeOnLine hheaded.1 hon hpass hline
  have hextends := extends_takeTo frames hpass
  exact ⟨hsound, hextends, fun _ _ => ⟨hon', hheaded.extends hextends⟩⟩

theorem records_takeElse? (hkind : opensBody header.kind = true) :
    Records all (fun s => s.Ends frames ∧ Headed frames header s)
      (lift frames (takeElse? header.span.column)) fun o s => match o with
        | none => s.Ends frames
        | some t => InHeader frames t s ∧ opensBody t.kind = true := by
  refine records_lift fun s hs ⟨hends, hknown, hmem⟩ r c hread => ?_
  obtain ⟨rfl, rfl⟩ | ⟨t, ts, u, hahead, hu, rfl, rfl⟩ := take?_eq_some hread
  · rw [takeTo_passes (.refl _)]
    refine ⟨hs, .refl s, ?_⟩
    rintro _ ⟨⟩
    exact hends
  · obtain ⟨⟨helse, hplace⟩, hut⟩ := Option.ite_none_right_eq_some.1 hu
    cases hut
    have hpass : s.cursor.Passes [t] ⟨some t, ts, s.cursor.finish⟩ := ⟨hahead, rfl, rfl⟩
    have hextends := extends_takeTo frames hpass
    rw [takeTo_passes hpass] at hextends ⊢
    have hsound := hs.take hknown hahead (fun hgoes => ?_) fun hbegins _ f outer _ => ?_
    · refine ⟨hsound, hextends, ?_⟩
      rintro _ ⟨⟩
      exact ⟨⟨⟨_, rfl, rfl⟩, hknown.extends hextends, List.mem_cons_self⟩, by rw [helse]; rfl⟩
    · have hline : s.cursor.startsLine = false := hgoes.resolve_right (by rw [helse]; decide)
      have hatEnd : s.cursor.atEnd = false := by rw [atEnd, hahead]; rfl
      exact (hends.resolve_left (by simp [endsStatement, hline, hatEnd])).1
    · have hcolumn := hplace.resolve_left (by simp [hbegins])
      exact .inr ⟨_, hmem, rfl, hkind, hcolumn.symm⟩

theorem endsStatement_of_fit {c : Cursor} (h : c.fit column = .behind) : c.endsStatement = true := by
  unfold fit at h
  unfold endsStatement
  cases hend : c.atEnd with
  | true => rfl
  | false => cases hline : c.startsLine <;> simp [hend, hline] at h ⊢

theorem starts_of_fit {s : Trail} {f : Frame} {around : List Frame}
    (hnext : s.cursor.endsStatement = true ∨ s.cursor.nextIs .elseKeyword = true)
    (hfit : s.cursor.fit f.column = .within) : s.Starts (f :: around) := by
  rcases hnext with hends | helse
  · refine .inr (.inl ?_)
    unfold fit at hfit
    unfold endsStatement at hends
    cases hend : s.cursor.atEnd with
    | true => simp [hend] at hfit
    | false =>
      rw [hend, Bool.false_or] at hends
      refine ⟨hends, ?_⟩
      rintro _ ⟨⟩
      by_contra hne
      rw [hend, hends] at hfit
      rcases Nat.lt_or_gt_of_ne hne with hlt | hgt
      · simp [hlt] at hfit
      · simp [hgt, Nat.not_lt.2 hgt.le] at hfit
  · exact .inr (.inr helse)

theorem records_opens (all : List Token) (o : Opening) : Records all
    (fun s => o.Sound ∧ o.past <:+ s.read ∧ s.cursor.endsStatement = true) (opens o)
    fun _ s => (∀ start, s.Known (⟨o.column, start⟩ :: o.around)) ∧ s.cursor.endsStatement = true := by
  rintro s hs ⟨ho, hpast, hends⟩ r s' hq
  cases hq
  have hextends : s.Extends { s with opened := o :: s.opened } :=
    ⟨List.suffix_refl _, List.subset_cons_self _ _⟩
  refine ⟨⟨hs.tokens, hs.previous, fun x past hx => ?_, fun x hx => ?_⟩, hextends, fun _ _ => ⟨?_, hends⟩⟩
  · obtain ⟨hgoes, hfront, hblock⟩ := hs.record x past hx
    refine ⟨hgoes, hfront, fun f outer hframes hne => ?_⟩
    obtain ⟨y, hy, hknown⟩ := hblock f outer hframes hne
    exact ⟨y, List.mem_cons_of_mem _ hy, hknown⟩
  · rcases List.mem_cons.1 hx with rfl | hx
    · exact ⟨ho, hpast⟩
    · exact hs.opened x hx
  · rintro start f outer hframes -
    cases hframes
    exact ⟨o, List.mem_cons_self, ho, rfl, rfl, hpast⟩

theorem records_takeKeyword : Records all (fun s => s.Starts frames ∧ s.Known frames)
    (lift frames (take? fun _ t => if beginsStatement t.kind then some t else none)) fun o s =>
      match o with
      | none => s.Starts frames ∧ s.Known frames
      | some t => InHeader frames t s := by
  refine records_lift fun s hs ⟨hstarts, hknown⟩ r c hread => ?_
  obtain ⟨rfl, rfl⟩ | ⟨t, ts, u, hahead, hu, rfl, rfl⟩ := take?_eq_some hread
  · rw [takeTo_passes (.refl _)]
    refine ⟨hs, .refl s, ?_⟩
    rintro _ ⟨⟩
    exact ⟨hstarts, hknown⟩
  · obtain ⟨hbegins, hut⟩ := Option.ite_none_right_eq_some.1 hu
    cases hut
    have hpass : s.cursor.Passes [t] ⟨some t, ts, s.cursor.finish⟩ := ⟨hahead, rfl, rfl⟩
    have hextends := extends_takeTo frames hpass
    have hkind : t.kind ≠ .comma ∧ t.kind ≠ .elseKeyword := by
      constructor <;> intro hkind <;> simp [hkind, beginsStatement] at hbegins
    obtain ⟨hsound, hon⟩ := hs.takeOwn hknown hstarts hkind hpass trivial
    refine ⟨hsound, hextends, ?_⟩
    rintro _ ⟨⟩
    refine ⟨hon, hknown.extends hextends, ?_⟩
    rw [takeTo_passes hpass]
    exact List.mem_cons_self

theorem no_operand_of_else {c : Cursor} (h : c.nextIs .elseKeyword = true) :
    ∀ t ∈ c.ahead.head?, t.kind ≠ .minus ∧ beginsOperand t.kind = false := by
  intro t ht
  obtain ⟨ts, hahead⟩ := List.head?_eq_some_iff.1 ht
  rw [nextIs, hahead] at h
  rw [of_decide_eq_true h]
  decide

theorem records_plainStatement (n : Nat) : Records all (fun s => s.Starts frames ∧ s.Known frames)
    (lift frames (plainStatement n)) fun _ s => s.On frames ∨ s.cursor.endsStatement = true := by
  refine records_lift fun s hs ⟨hstarts, hknown⟩ r c hread => ?_
  obtain ⟨ts, hpass, howns⟩ := ownsLine_plainStatement n r c hread
  have hextends := extends_takeTo frames hpass
  cases ts with
  | nil =>
    obtain rfl := hpass.eq
    rw [takeTo_passes hpass] at hextends ⊢
    refine ⟨hs, hextends, ?_⟩
    rintro a rfl
    rcases hstarts with ⟨hon, -⟩ | ⟨hline, -⟩ | helse
    · exact .inl hon
    · exact .inr (Bool.or_eq_true_iff.2 (.inr hline))
    · obtain ⟨-, e, he⟩ := stalls_plainStatement (no_operand_of_else helse) n _ _ hread
      cases he
  | cons t ts =>
    have hkind : t.kind ≠ .comma ∧ t.kind ≠ .elseKeyword := by
      by_contra hkind
      have hnone : ∀ u ∈ s.cursor.ahead.head?, u.kind ≠ .minus ∧ beginsOperand u.kind = false := by
        rw [hpass.ahead]
        rintro _ ⟨⟩
        rw [not_and_or, not_not, not_not] at hkind
        rcases hkind with hkind | hkind <;> simp [hkind, beginsOperand]
      obtain ⟨rfl, -⟩ := stalls_plainStatement hnone n _ _ hread
      have hlength := congrArg List.length hpass.ahead
      rw [List.length_append, List.length_cons] at hlength
      omega
    obtain ⟨hsound, hon⟩ := hs.takeOwn hknown hstarts hkind hpass (howns t ts rfl)
    exact ⟨hsound, hextends, fun _ _ => .inl hon⟩

theorem records_endOfStatement : Records all (fun s => s.On frames ∨ s.cursor.endsStatement = true)
    (lift frames endOfStatement) fun _ s => s.Ends frames := by
  refine records_lift fun s hs hdone r c hread => ?_
  rw [endOfStatement, bind_eq_ok (read_apply _ _)] at hread
  cases hnext : s.cursor.endsStatement || s.cursor.nextIs .elseKeyword with
  | false =>
    rw [hnext] at hread
    cases hread
    rw [takeTo_passes (.refl _)]
    exact ⟨hs, .refl s, nofun⟩
  | true =>
    rw [hnext] at hread
    cases hread
    rw [takeTo_passes (.refl _)]
    refine ⟨hs, .refl s, fun _ _ => ?_⟩
    rcases Bool.or_eq_true_iff.1 hnext with hends | helse
    · exact .inl hends
    · exact hdone.symm.imp_right fun hon => ⟨hon, helse⟩

section Statements

variable {q : List Frame → Tracer Statement}
  (hq : ∀ frames, Records all (fun s => s.Starts frames ∧ s.Known frames) (q frames)
    fun _ s => s.Ends frames)
include hq

theorem records_linesAt (column : Nat) (around : List Frame) (n : Nat) : Records all
    (fun s => (s.cursor.endsStatement = true ∨ s.cursor.nextIs .elseKeyword = true) ∧
      ∀ start, s.Known (⟨column, start⟩ :: around))
    (linesAt q column around n) fun _ s => s.cursor.endsStatement = true := by
  induction n with
  | zero => exact records_stuck
  | succ n ih =>
    refine records_read fun fit => ?_
    cases fit with
    | behind => exact records_pure fun s hs => endsStatement_of_fit hs.2
    | deeper => exact records_stalls fun c => stalls_failHere _
    | within =>
      refine records_read fun start => ?_
      have hknown (s s' : Trail) (hs : s.Extends s')
          (h : ∀ start, s.Known (⟨column, start⟩ :: around)) (start : Nat) :
          s'.Known (⟨column, start⟩ :: around) := (h start).extends hs
      refine records_bind (((hq (⟨column, start⟩ :: around)).frame hknown).conseq ?_ fun _ _ h => h) fun s => ?_
      · rintro s ⟨⟨⟨hnext, hall⟩, hfit⟩, -⟩
        exact ⟨⟨starts_of_fit hnext hfit, hall start⟩, hall⟩
      · refine records_bind (ih.conseq ?_ fun _ _ h => h) fun ss => records_pure fun s h => h
        rintro s ⟨hends, hall⟩
        exact ⟨hends.imp_right And.right, hall⟩

theorem records_indentedBlock (construct : Construct) (hkind : opensBody header.kind = true) (n : Nat) :
    Records all (fun s => InHeader frames header s ∧ s.cursor.endsStatement = true)
      (indentedBlock q construct frames header n) fun _ s => s.Ends frames := by
  refine records_read fun shallow => ?_
  cases shallow with
  | true => exact records_stalls fun c => stalls_failHere _
  | false =>
    refine records_read fun column => records_read fun past => ?_
    have hopens := records_opens all ⟨header, column, frames, past⟩
    refine records_bind (hopens.conseq ?_ fun _ _ h => h) fun _ => ?_
    · rintro s ⟨⟨⟨⟨⟨-, -, hmem⟩, hends⟩, hdeep⟩, rfl⟩, rfl⟩
      simp only [Bool.or_eq_false_iff, decide_eq_false_iff_not, Nat.not_le] at hdeep
      exact ⟨⟨hmem, hkind, hdeep.2⟩, List.suffix_refl _, hends⟩
    · refine records_bind ((records_linesAt hq column frames n).conseq ?_ fun _ _ h => h) fun ss => ?_
      · rintro s ⟨hknown, hends⟩
        exact ⟨.inl hends, hknown⟩
      · exact records_pure fun s hends => .inl hends

theorem records_body (construct : Construct) (hkind : opensBody header.kind = true) (n : Nat) :
    Records all (InHeader frames header) (body q construct frames header n)
      fun _ s => s.Ends frames ∧ Headed frames header s := by
  have hbody : Records all (InHeader frames header) (body q construct frames header n)
      fun _ s => s.Ends frames := by
    refine records_bind (records_keepsLine fun c => keepsLine_takeOnLine? _) fun _ => ?_
    refine records_read fun ends => ?_
    cases ends with
    | true => exact records_indentedBlock hq construct hkind n
    | false =>
      refine (hq frames).conseq ?_ fun _ _ h => h
      rintro s ⟨⟨hon, hknown, -⟩, hgoes⟩
      exact ⟨.inl ⟨hon, (Bool.or_eq_false_iff.1 hgoes).2⟩, hknown⟩
  refine (hbody.frame fun _ _ hs => Headed.extends hs).conseq ?_ fun _ _ h => h
  exact fun s hs => ⟨hs, hs.2⟩

theorem records_ifStatement (hkind : opensBody header.kind = true) (n : Nat) :
    Records all (InHeader frames header) (ifStatement q frames header n) fun _ s => s.Ends frames := by
  refine records_bind (records_keepsLine fun c => keepsLine_expression n) fun condition =>
    records_bind (records_body hq _ hkind n) fun thenBranch =>
      records_bind (records_takeElse? hkind) fun o => ?_
  cases o with
  | none => exact records_pure fun s hs => hs
  | some t =>
    refine records_of_fact fun helse => ?_
    exact records_bind (records_body hq _ helse n) fun _ => records_pure fun _ hs => hs.1

theorem records_defStatement (hkind : opensBody header.kind = true) (n : Nat) :
    Records all (InHeader frames header) (defStatement q frames header n) fun _ s => s.Ends frames :=
  records_bind (records_keepsLine fun _ => keepsLine_expect _ _) fun _ =>
    records_bind (records_keepsLine fun _ => keepsLine_expect _ _) fun _ =>
      records_bind (records_keepsLine fun _ => keepsLine_parameterList _ n) fun _ =>
        records_bind (records_body hq _ hkind n) fun _ => records_pure fun _ hs => hs.1

theorem records_openStatement (n : Nat) : Records all (fun s => s.Starts frames ∧ s.Known frames)
    (openStatement q frames n) fun _ s => s.On frames ∨ s.cursor.endsStatement = true := by
  refine records_bind records_takeKeyword fun o => ?_
  cases o with
  | none => exact records_plainStatement n
  | some t =>
    dsimp only
    split
    next =>
      exact (records_keepsLine fun c => keepsLine_printStatement n).conseq (fun s hs => hs)
        fun _ s hs => .inl hs.1
    next hkind =>
      exact (records_ifStatement hq (by rw [hkind]; rfl) n).conseq (fun s hs => hs)
        fun _ s hs => hs.symm.imp_left And.left
    next hkind =>
      exact (records_defStatement hq (by rw [hkind]; rfl) n).conseq (fun s hs => hs)
        fun _ s hs => hs.symm.imp_left And.left
    next =>
      exact (records_keepsLine fun c => keepsLine_returnStatement n).conseq (fun s hs => hs)
        fun _ s hs => .inl hs.1

end Statements

theorem records_statement (n : Nat) (frames : List Frame) :
    Records all (fun s => s.Starts frames ∧ s.Known frames) (statement n frames)
      fun _ s => s.Ends frames := by
  induction n generalizing frames with
  | zero => exact records_stuck
  | succ n ih =>
    exact records_bind (records_openStatement ih (n + 1)) fun _ =>
      records_bind records_endOfStatement fun _ => records_pure fun _ hs => hs

theorem records_program (n : Nat) :
    Records all (fun s => s.cursor.startsLine = true) (program n) fun _ _ => True := by
  refine records_read fun column => ?_
  refine records_bind ((records_linesAt (records_statement n) column [] n).conseq ?_ fun _ _ h => h) fun ss => ?_
  · rintro s ⟨hline, -⟩
    refine ⟨.inl (Bool.or_eq_true_iff.2 (.inr hline)), fun start f outer hframes hne => ?_⟩
    cases hframes
    exact absurd rfl hne
  · refine records_read fun ended => ?_
    cases ended with
    | true => exact records_pure fun _ _ => trivial
    | false => exact records_stalls fun _ => stalls_unexpected _

end Tracer

section Texts

variable {opened : List Opening} {record past : List Taking} {x y : Taking}

theorem lineHead_left (hbefore : (x :: past).Pairwise fun x y => y.token.position.Before x.token.position)
    (hflat : ∀ y ∈ past, y.token.span.endLine = y.token.span.line)
    (hgoes : begins past x.token = false) (hy : lineHead past = some y) :
    y.token.span.column < x.token.span.column := by
  induction past generalizing x with
  | nil => cases hy
  | cons z past ih =>
    obtain ⟨hx, hrest⟩ := List.pairwise_cons.1 hbefore
    have hline : x.token.span.line ≤ z.token.span.line := by
      rw [← hflat z List.mem_cons_self]
      exact Nat.not_lt.1 (of_decide_eq_false hgoes)
    have hzx : z.token.span.column < x.token.span.column := by
      rcases hx z List.mem_cons_self with hlater | ⟨-, hcolumn⟩
      · exact absurd hlater (Nat.not_lt.2 hline)
      · exact hcolumn
    rw [lineHead] at hy
    cases hbegins : begins past z.token with
    | true =>
      rw [hbegins, if_pos rfl] at hy
      cases hy
      exact hzx
    | false =>
      rw [hbegins, if_neg Bool.false_ne_true] at hy
      exact (ih hrest (fun w hw => hflat w (List.mem_cons_of_mem z hw)) hbegins hy).trans hzx

theorem exists_lineHead (hne : past ≠ []) : ∃ y, lineHead past = some y := by
  induction past with
  | nil => exact absurd rfl hne
  | cons x past ih =>
    rw [lineHead]
    cases hbegins : begins past x.token with
    | true => exact ⟨x, if_pos rfl⟩
    | false =>
      cases past with
      | nil => cases hbegins
      | cons y past => exact ih (List.cons_ne_nil y past)

theorem SoundRecord.tidy (h : SoundRecord opened record)
    (hbefore : record.Pairwise fun x y => y.token.position.Before x.token.position)
    (hflat : ∀ x ∈ record, x.token.span.endLine = x.token.span.line)
    (hcommas : record.IsChain fun x y =>
      x.token.kind = .comma → x.token.span.line ≤ y.token.span.endLine)
    (frames : List Frame) : Tidy frames record := by
  induction record with
  | nil => trivial
  | cons x past ih =>
    have hpast := h.suffix (List.suffix_cons x past)
    have hflat' : ∀ y ∈ past, y.token.span.endLine = y.token.span.line :=
      fun y hy => hflat y (List.mem_cons_of_mem x hy)
    refine ⟨fun _ _ => ?_, ih hpast hbefore.of_cons hflat' hcommas.tail⟩
    cases hgoes : begins past x.token with
    | true => exact .inl hgoes
    | false =>
      have hne : past ≠ [] := by
        rintro rfl
        cases hgoes
      obtain ⟨y, hy⟩ := exists_lineHead hne
      refine .inr ⟨y, hy, fun hkind => ?_, lineHead_left hbefore hflat' hgoes hy⟩
      obtain ⟨⟨before, hyp, hbegins⟩, -⟩ := hpast.frames_lineHead hy
      obtain ⟨z, hz, -⟩ := (hpast y before hyp).goesOn (.inr hkind)
      obtain ⟨rest, rfl⟩ := List.head?_eq_some_iff.1 hz
      have hchain := hcommas.tail.suffix hyp
      exact Nat.not_lt.2 ((List.isChain_cons_cons.1 hchain).1 hkind) (of_decide_eq_true hbegins)

end Texts

end Grammar

namespace Statement

open Grammar

def ofTokensTraced (ts : List Token) : Option (Except SyntaxError Statement × Trail) :=
  let c := Cursor.ofTokens ts
  Tracer.program (c.size + 1) ⟨c, [], []⟩

variable {ts : List Token} {trail : Trail} {r : Except SyntaxError Statement} {root : Statement}

/-- The record is kept of each run, whether a program is read or not. -/
theorem exists_ofTokensTraced (ts : List Token) :
    ∃ trail, ofTokensTraced ts = some (ofTokens ts, trail) := by
  have hfollows := Tracer.follows_program ((Cursor.ofTokens ts).size + 1) ⟨.ofTokens ts, [], []⟩
  rw [Cursor.program_eq_some] at hfollows
  obtain ⟨⟨r, trail⟩, htraced, heq⟩ := Option.map_eq_some_iff.1 hfollows
  exact ⟨trail, htraced.trans (by rw [ofTokens, ← heq])⟩

/-- Each indented block of a program has been recorded; one more block holds the lines of the program. -/
theorem length_opened (h : ofTokensTraced ts = some (.ok root, trail)) :
    trail.opened.length + 1 = root.blockCount := by
  have hcounts := Tracer.counts_program _ _ _ _ h
  rwa [List.length_nil, Nat.zero_add] at hcounts

theorem sound_ofTokensTraced (h : ofTokensTraced ts = some (r, trail)) :
    trail.Sound (Cursor.ofTokens ts).ahead := by
  have hempty : Trail.Sound (Cursor.ofTokens ts).ahead ⟨.ofTokens ts, [], []⟩ :=
    ⟨rfl, rfl, fun x past hx => by simp at hx, nofun⟩
  exact (Tracer.records_program _ _ hempty rfl _ _ h).1

/-- Headers are where they should be in a text without strings over several lines and without commas at the
front of a line. -/
theorem tidy_of_tokenize {source : String} (h : Token.tokenize source = .ok ts)
    (hflat : ∀ t ∈ ts, t.span.endLine = t.span.line)
    (hcommas : ts.IsChain fun t u => u.kind = .comma → u.span.line ≤ t.span.endLine)
    (htraced : ofTokensTraced ts = some (r, trail)) (frames : List Frame) : Tidy frames trail.read := by
  have hsound := sound_ofTokensTraced htraced
  have hahead : (Cursor.ofTokens ts).ahead <+: ts := List.takeWhile_prefix _
  rw [← hsound.tokens] at hahead
  have hread := (List.prefix_append _ _).trans hahead
  apply hsound.record.tidy
  · have hbefore := (Token.before_of_tokenize h).sublist hread.sublist
    rwa [List.pairwise_reverse, List.pairwise_map] at hbefore
  · intro x hx
    exact hflat _ (hread.subset (List.mem_reverse.2 (List.mem_map_of_mem hx)))
  · have hchain := hcommas.prefix hread
    rwa [List.isChain_reverse, List.isChain_map] at hchain

/-- A block is further right than its header. If the headers of the statements around it are where they
should be, it is further right than their blocks, and a line that is read in it begins right of those. -/
theorem ofTokens_opens_deeper (ts : List Token) : ∃ trail,
    ofTokensTraced ts = some (ofTokens ts, trail) ∧
    (∀ o ∈ trail.opened, o.header.span.column < o.column ∧
      ∀ f outer, f :: outer <:+ o.around → TidyBetween o.past o.around (f :: outer) →
        f.column ≤ o.header.span.column ∧ f.column < o.column) ∧
    ∀ x past, x :: past <:+ trail.read → begins past x.token = true → x.token.kind ≠ .comma →
      ∀ f outer, f :: outer <:+ x.frames.tail → TidyBetween past x.frames (f :: outer) →
        f.column < x.token.span.column := by
  obtain ⟨trail, htraced⟩ := exists_ofTokensTraced ts
  have hsound := sound_ofTokensTraced htraced
  refine ⟨trail, htraced, fun o ho => ?_, fun x past hx hbegins hcomma f outer houter htidy => ?_⟩
  · obtain ⟨hopening, hpast⟩ := hsound.opened o ho
    refine ⟨hopening.deeper, fun f outer houter htidy => ?_⟩
    have hle := hsound.record.header_le hopening hpast houter htidy
    exact ⟨hle, hle.trans_lt hopening.deeper⟩
  · exact hsound.record.front_lt hx hbegins hcomma houter htidy

def headersOnLine : List Token :=
  [⟨.ifKeyword, "if", ⟨0, 2, 1, 0, 1⟩⟩, ⟨.identifier, "a", ⟨3, 4, 1, 3, 1⟩⟩,
    ⟨.ifKeyword, "if", ⟨7, 9, 2, 2, 2⟩⟩, ⟨.identifier, "b", ⟨10, 11, 2, 5, 2⟩⟩,
    ⟨.colon, ":", ⟨11, 12, 2, 6, 2⟩⟩, ⟨.defKeyword, "def", ⟨13, 16, 2, 8, 2⟩⟩,
    ⟨.identifier, "f", ⟨17, 18, 2, 12, 2⟩⟩, ⟨.lparen, "(", ⟨18, 19, 2, 13, 2⟩⟩,
    ⟨.rparen, ")", ⟨19, 20, 2, 14, 2⟩⟩, ⟨.identifier, "x", ⟨30, 31, 3, 9, 3⟩⟩]

def headersOnLineFrames : List (List Frame) :=
  List.replicate 2 [⟨0, 0⟩] ++ List.replicate 7 [⟨2, 2⟩, ⟨0, 0⟩] ++ [[⟨9, 9⟩, ⟨2, 2⟩, ⟨0, 0⟩]]

def headersOnLineTaken (n : Nat) : List Taking :=
  ((headersOnLine.zipWith Taking.mk headersOnLineFrames).take n).reverse

theorem ofTokens_opens_deeper_headersOnLine : ∃ trail,
    ofTokensTraced headersOnLine = some (ofTokens headersOnLine, trail) ∧
    (∃ o ∈ trail.opened, o.around = [⟨2, 2⟩, ⟨0, 0⟩] ∧ o.header.span.column = 8 ∧ o.column = 9 ∧
      TidyBetween o.past o.around [⟨0, 0⟩] ∧ 0 < o.column) ∧
    ∃ x past, x :: past <:+ trail.read ∧ x.frames.tail = [⟨2, 2⟩, ⟨0, 0⟩] ∧
      begins past x.token = true ∧ x.token.kind ≠ .comma ∧ 2 < x.token.span.column := by
  obtain ⟨trail, htraced, hopened, hlines⟩ := ofTokens_opens_deeper headersOnLine
  have hrecord : (ofTokensTraced headersOnLine).map (fun x => (x.2.opened, x.2.read)) =
      some ([⟨headersOnLine[5], 9, [⟨2, 2⟩, ⟨0, 0⟩], headersOnLineTaken 9⟩,
        ⟨headersOnLine[0], 2, [⟨0, 0⟩], headersOnLineTaken 2⟩], headersOnLineTaken 10) := by decide +kernel
  rw [htraced, Option.map_some, Option.some.injEq, Prod.mk.injEq] at hrecord
  obtain ⟨hopenings, hread⟩ := hrecord
  have htidy (frames : List Frame) : Tidy frames (headersOnLineTaken 9) := by
    simp [headersOnLineTaken, headersOnLineFrames, headersOnLine, Tidy, Inset, begins, lineHead, opensBody]
  have ho : (⟨headersOnLine[5], 9, [⟨2, 2⟩, ⟨0, 0⟩], headersOnLineTaken 9⟩ : Opening) ∈ trail.opened := by
    rw [hopenings]
    exact List.mem_cons_self
  refine ⟨trail, htraced, ⟨_, ho, rfl, rfl, rfl, fun _ _ _ => htidy _, ?_⟩, ?_⟩
  · exact ((hopened _ ho).2 ⟨0, 0⟩ [] (List.suffix_cons _ _) fun _ _ _ => htidy _).2
  · have hx : ⟨headersOnLine[9], [⟨9, 9⟩, ⟨2, 2⟩, ⟨0, 0⟩]⟩ :: headersOnLineTaken 9 <:+ trail.read := by
      rw [hread]
      exact List.suffix_refl _
    exact ⟨_, _, hx, rfl, rfl, by decide,
      hlines _ _ hx rfl (by decide) ⟨2, 2⟩ [⟨0, 0⟩] (List.suffix_refl _) fun _ _ _ => htidy _⟩

def headerLeft : List Token :=
  [⟨.ifKeyword, "if", ⟨0, 2, 1, 0, 1⟩⟩, ⟨.identifier, "a", ⟨3, 4, 1, 3, 1⟩⟩,
    ⟨.colon, ":", ⟨4, 5, 1, 4, 1⟩⟩, ⟨.ifKeyword, "if", ⟨14, 16, 2, 8, 2⟩⟩,
    ⟨.string, "\n", ⟨17, 20, 2, 11, 3⟩⟩, ⟨.colon, ":", ⟨21, 22, 3, 2, 3⟩⟩,
    ⟨.ifKeyword, "if", ⟨23, 25, 3, 4, 3⟩⟩, ⟨.identifier, "b", ⟨26, 27, 3, 7, 3⟩⟩,
    ⟨.colon, ":", ⟨27, 28, 3, 8, 3⟩⟩, ⟨.print, "print", ⟨37, 42, 4, 8, 4⟩⟩,
    ⟨.integer, "1", ⟨43, 44, 4, 14, 4⟩⟩, ⟨.print, "print", ⟨53, 58, 5, 8, 5⟩⟩,
    ⟨.integer, "2", ⟨59, 60, 5, 14, 5⟩⟩, ⟨.eof, "", ⟨61, 61, 6, 0, 6⟩⟩]

/-- Both lines at the column of the outer block are read into the inner one. -/
theorem not_opens_deeper_headerLeft :
    Token.tokenize "if a:\n        if \"\n\" : if b:\n        print 1\n        print 2\n" =
        .ok headerLeft ∧
      ofTokens headerLeft = .ok (.block [.ifElse (.var "a") (.block [.ifElse (.text "\n")
        (.ifElse (.var "b") (.block [.print [.integer 1], .print [.integer 2]]) none) none]) none]) ∧
      ¬ ∀ answer trail, ofTokensTraced headerLeft = some (answer, trail) →
        ∀ o ∈ trail.opened, ∀ f ∈ o.around, f.column < o.column := by
  refine ⟨by cbv, rfl, fun h => ?_⟩
  obtain ⟨trail, htraced⟩ := exists_ofTokensTraced headerLeft
  have hrecord : (ofTokensTraced headerLeft).map (fun x => x.2.opened.map fun o => (o.column, o.around)) =
      some [(8, [⟨8, 3⟩, ⟨0, 0⟩]), (8, [⟨0, 0⟩])] := by decide +kernel
  rw [htraced, Option.map_some, Option.some.injEq] at hrecord
  obtain ⟨o, opened, hopened, heq, -⟩ := List.map_eq_cons_iff.1 hrecord
  obtain ⟨hcolumn, haround⟩ := Prod.mk.inj heq
  have ho : o ∈ trail.opened := by
    rw [hopened]
    exact List.mem_cons_self
  have hlt := h _ trail htraced o ho ⟨8, 3⟩ (by rw [haround]; exact List.mem_cons_self)
  rw [hcolumn] at hlt
  exact Nat.lt_irrefl 8 hlt

end Statement

end IntScript
