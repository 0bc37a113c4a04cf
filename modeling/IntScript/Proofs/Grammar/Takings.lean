import IntScript.Token
import Mathlib.Data.List.Infix

/-!
# Where tokens are read

A record of the tokens that are taken, the latest first, each with the statements that it belongs to. Lines
begin in the column of the block that they are in, except that an `else` may stand below its `if`. So lines
and headers stand no further left than the blocks around them, as long as no header in the middle of a line
is left of where the line begins.
-/

namespace IntScript.Grammar

def opensBody : TokenKind → Bool
  | .ifKeyword | .elseKeyword | .defKeyword => true
  | _ => false

/-- A statement of a block: the column of the block, and how many tokens stand in front of the statement. -/
structure Frame where
  column : Nat
  start : Nat
deriving DecidableEq

/-- A token that is taken, and the statements it belongs to, from the inside out. -/
structure Taking where
  token : Token
  frames : List Frame
deriving DecidableEq

/-- A block that is opened: its header and its column, the statements around it, and what was taken in front
of it. -/
structure Opening where
  header : Token
  column : Nat
  around : List Frame
  past : List Taking
deriving DecidableEq

def begins (past : List Taking) (t : Token) : Bool := past.head?.all (·.token.span.endLine < t.span.line)

def lineHead : List Taking → Option Taking
  | [] => none
  | x :: past => if begins past x.token then some x else lineHead past

/-- The token begins a line, or is right of the one that does. Lines that begin with a comma do not count. -/
def Inset (past : List Taking) (t : Token) : Prop :=
  begins past t = true ∨
    ∃ x, lineHead past = some x ∧ x.token.kind ≠ .comma ∧ x.token.span.column < t.span.column

/-- The headers of a statement, as far as it is read, are where they should be. -/
def Tidy (frames : List Frame) : List Taking → Prop
  | [] => True
  | x :: past =>
    (x.frames = frames → opensBody x.token.kind = true → Inset past x.token) ∧ Tidy frames past

/-- So are those of all statements from the inner one outwards up to the outer one. -/
def TidyBetween (past : List Taking) (inner outer : List Frame) : Prop :=
  ∀ frames ∈ inner.tails, outer <:+ frames → Tidy frames past

structure Opening.Sound (o : Opening) : Prop where
  header : ⟨o.header, o.around⟩ ∈ o.past
  kind : opensBody o.header.kind = true
  deeper : o.header.span.column < o.column

structure Taking.Sound (opened : List Opening) (past : List Taking) (x : Taking) : Prop where
  goesOn : begins past x.token = false ∨ x.token.kind = .comma → ∃ y ∈ past.head?, y.frames = x.frames
  front : begins past x.token = true → x.token.kind ≠ .comma → ∀ f outer, x.frames = f :: outer →
    x.token.span.column = f.column ∨ ∃ y ∈ past, y.frames = x.frames ∧ opensBody y.token.kind = true ∧
      y.token.span.column = x.token.span.column
  block : ∀ f outer, x.frames = f :: outer → outer ≠ [] →
    ∃ o ∈ opened, o.Sound ∧ o.column = f.column ∧ o.around = outer ∧ o.past <:+ past

def SoundRecord (opened : List Opening) (record : List Taking) : Prop :=
  ∀ x past, x :: past <:+ record → x.Sound opened past

variable {opened : List Opening} {record past before : List Taking} {x y : Taking} {f g : Frame}
  {frames outer inner rest : List Frame}

theorem SoundRecord.suffix (h : SoundRecord opened record) (hpast : past <:+ record) :
    SoundRecord opened past :=
  fun x before hx => h x before (hx.trans hpast)

theorem Tidy.suffix (h : Tidy frames record) (hpast : past <:+ record) : Tidy frames past := by
  induction record with
  | nil => rwa [List.suffix_nil.1 hpast]
  | cons x record ih =>
    rcases List.suffix_cons_iff.1 hpast with rfl | hpast
    · exact h
    · exact ih h.2 hpast

theorem exists_suffix_of_mem (h : x ∈ past) : ∃ before, x :: before <:+ past := by
  obtain ⟨later, before, rfl⟩ := List.append_of_mem h
  exact ⟨before, List.suffix_append later _⟩

theorem SoundRecord.frames_lineHead (h : SoundRecord opened past) (hx : lineHead past = some x) :
    (∃ before, x :: before <:+ past ∧ begins before x.token = true) ∧
      ∀ y ∈ past.head?, x.frames = y.frames := by
  induction past with
  | nil => cases hx
  | cons y past ih =>
    rw [lineHead] at hx
    cases hbegins : begins past y.token with
    | true =>
      rw [hbegins, if_pos rfl] at hx
      cases hx
      refine ⟨⟨past, List.suffix_refl _, hbegins⟩, ?_⟩
      rintro _ ⟨⟩
      rfl
    | false =>
      rw [hbegins, if_neg Bool.false_ne_true] at hx
      obtain ⟨⟨before, hbefore, hfront⟩, hframes⟩ := ih (h.suffix (List.suffix_cons y past)) hx
      refine ⟨⟨before, hbefore.trans (List.suffix_cons y past), hfront⟩, ?_⟩
      rintro _ ⟨⟩
      obtain ⟨z, hz, hsame⟩ := (h y past (List.suffix_refl _)).goesOn (.inl hbegins)
      exact (hframes z hz).trans hsame

/-- In a tidy statement lines and headers are not left of the block. -/
theorem SoundRecord.column_le (h : SoundRecord opened record) (hx : x :: past <:+ record)
    (hframes : x.frames = f :: outer) :
    (begins past x.token = true → x.token.kind ≠ .comma → Tidy x.frames past →
      f.column ≤ x.token.span.column) ∧
    (opensBody x.token.kind = true → Tidy x.frames (x :: past) → f.column ≤ x.token.span.column) := by
  induction record generalizing x past with
  | nil => exact absurd hx (by simp)
  | cons z record ih =>
    rcases List.suffix_cons_iff.1 hx with heq | hx
    · cases heq
      have hrecord := h.suffix (List.suffix_cons z record)
      have hsound := h z record (List.suffix_refl _)
      have hfront (hbegins : begins record z.token = true) (hcomma : z.token.kind ≠ .comma)
          (htidy : Tidy z.frames record) : f.column ≤ z.token.span.column := by
        rcases hsound.front hbegins hcomma f outer hframes with heq | ⟨y, hy, hsame, hkind, heq⟩
        · exact heq.ge
        · obtain ⟨before, hbefore⟩ := exists_suffix_of_mem hy
          rw [← heq]
          rw [← hsame] at htidy
          exact (ih hrecord hbefore (hsame.trans hframes)).2 hkind (htidy.suffix hbefore)
      refine ⟨hfront, fun hkind htidy => ?_⟩
      have hcomma : z.token.kind ≠ .comma := by
        intro hcomma
        rw [hcomma] at hkind
        cases hkind
      rcases htidy.1 rfl hkind with hbegins | ⟨y, hy, hcomma', hleft⟩
      · exact hfront hbegins hcomma htidy.2
      · cases hbegins : begins record z.token with
        | true => exact hfront hbegins hcomma htidy.2
        | false =>
          obtain ⟨⟨before, hbefore, hfirst⟩, hline⟩ := hrecord.frames_lineHead hy
          obtain ⟨w, hw, hsame⟩ := hsound.goesOn (.inl hbegins)
          have hyx : y.frames = z.frames := (hline w hw).trans hsame
          have htidy' : Tidy y.frames before := by
            rw [hyx]
            exact htidy.2.suffix ((List.suffix_cons y before).trans hbefore)
          exact ((ih hrecord hbefore (hyx.trans hframes)).1 hfirst hcomma' htidy').trans hleft.le
    · exact ih (h.suffix (List.suffix_cons z record)) hx hframes

theorem TidyBetween.tidy (h : TidyBetween past inner outer) (hinner : frames <:+ inner)
    (houter : outer <:+ frames) : Tidy frames past :=
  h frames ((List.mem_tails _ _).2 hinner) houter

theorem TidyBetween.suffix (h : TidyBetween past inner outer) (hbefore : before <:+ past)
    (hinner : frames <:+ inner) : TidyBetween before frames outer :=
  fun _ hs houter => (h.tidy (((List.mem_tails _ _).1 hs).trans hinner) houter).suffix hbefore

theorem SoundRecord.column_lt (h : SoundRecord opened record) (hx : x :: past <:+ record)
    (hframes : x.frames = f :: inner) (hinner : g :: outer <:+ inner)
    (htidy : TidyBetween past inner (g :: outer)) : g.column < f.column := by
  -- The header of the block belongs to the statement around it.
  induction inner generalizing x past f with
  | nil => exact absurd hinner (by simp)
  | cons k rest ih =>
    obtain ⟨o, -, hopening, hcolumn, haround, hpast⟩ :=
      (h x past hx).block f (k :: rest) hframes (List.cons_ne_nil k rest)
    obtain ⟨before, hbefore⟩ := exists_suffix_of_mem hopening.header
    have hpastRecord : past <:+ record := (List.suffix_cons x past).trans hx
    have hheader := (hbefore.trans hpast).trans hpastRecord
    rw [haround] at hheader hbefore
    have hk : k.column ≤ o.header.span.column := by
      have htidyHere := htidy.tidy (List.suffix_refl _) hinner
      exact (h.column_le hheader rfl).2 hopening.kind (htidyHere.suffix (hbefore.trans hpast))
    have hlt : k.column < f.column := hk.trans_lt (hcolumn ▸ hopening.deeper)
    rcases List.suffix_cons_iff.1 hinner with heq | hrest
    · cases heq
      exact hlt
    · have hbetween : TidyBetween before rest (g :: outer) :=
        htidy.suffix ((List.suffix_cons _ _).trans (hbefore.trans hpast)) (List.suffix_cons k rest)
      exact (ih hheader rfl hrest hbetween).trans hlt

theorem SoundRecord.header_le (h : SoundRecord opened record) {o : Opening} (ho : o.Sound)
    (hpast : o.past <:+ record) (houter : g :: outer <:+ o.around)
    (htidy : TidyBetween o.past o.around (g :: outer)) : g.column ≤ o.header.span.column := by
  obtain ⟨before, hbefore⟩ := exists_suffix_of_mem ho.header
  have hheader := hbefore.trans hpast
  cases hframes : o.around with
  | nil =>
    rw [hframes] at houter
    exact absurd houter (by simp)
  | cons k rest =>
    have hk : k.column ≤ o.header.span.column :=
      (h.column_le hheader hframes).2 ho.kind ((htidy.tidy (List.suffix_refl _) houter).suffix hbefore)
    rw [hframes] at houter
    rcases List.suffix_cons_iff.1 houter with heq | hrest
    · cases heq
      exact hk
    · have hbetween : TidyBetween before rest (g :: outer) :=
        htidy.suffix ((List.suffix_cons _ _).trans hbefore) (hframes ▸ List.suffix_cons k rest)
      exact (h.column_lt hheader hframes hrest hbetween).le.trans hk

theorem SoundRecord.front_lt (h : SoundRecord opened record) (hx : x :: past <:+ record)
    (hbegins : begins past x.token = true) (hcomma : x.token.kind ≠ .comma)
    (houter : g :: outer <:+ x.frames.tail) (htidy : TidyBetween past x.frames (g :: outer)) :
    g.column < x.token.span.column := by
  cases hframes : x.frames with
  | nil =>
    rw [hframes] at houter
    exact absurd houter (by simp)
  | cons f inner =>
    have houter' := houter.trans (List.tail_suffix x.frames)
    have hf := (h.column_le hx hframes).1 hbegins hcomma (htidy.tidy (List.suffix_refl _) houter')
    rw [hframes, List.tail_cons] at houter
    have hbetween : TidyBetween past inner (g :: outer) :=
      htidy.suffix (List.suffix_refl _) (hframes ▸ List.suffix_cons f inner)
    exact (h.column_lt hx hframes houter hbetween).trans_le hf

end IntScript.Grammar
