import IntScript.Proofs.Grammar.Stops
import IntScript.Proofs.Token.Joined

/-!
# A program that is put together from chunks

A chunk is some lines that can stand alone: the first begins at the left margin, and every later one is
indented or begins with `else`. Recovery has one error for each malformed chunk, and reads the well-formed
ones as they are alone. Where a chunk is found out only past its end, the next one with tokens is skipped, so
that one has to be well-formed.
-/

namespace IntScript

open Grammar

/-- Whole lines that can stand alone. A later line at the left margin begins with `else`. -/
structure Chunk where
  text : String
  tokens : List Token
  tokenize_eq : Token.tokenize text = .ok tokens
  endsLine : EndsLine text.toList
  first : ∀ t ∈ tokens.head?, t.span.column = 0 ∧ t.kind ≠ .elseKeyword
  later : tokens.IsChain fun t u => t.span.endLine < u.span.line →
    0 < u.span.column ∨ u.kind = .elseKeyword ∨ u.kind = .eof

def Grammar.Motion.down (lines : Nat) : Motion where
  line n := n + lines
  column n := n
  line_mono _ _ h := Nat.add_lt_add_right h lines
  column_mono _ _ h := h

theorem Grammar.Motion.moves_shift (bytes lines : Nat) (t : Token) :
    (Motion.down lines).Moves t (t.shift bytes lines) :=
  ⟨rfl, rfl, rfl, rfl, rfl⟩

theorem Grammar.alike_shift {ts rest : List Token} {previous : Option Token} {last finish : Position}
    {lines : Nat} (bytes : Nat) (hfirst : ∀ t ∈ ts.head?, 0 < t.span.line)
    (hprevious : ∀ u ∈ previous, u.span.endLine ≤ lines)
    (hborders : Cursor.Borders ⟨lastOf previous (ts.map (Token.shift bytes lines)), rest, finish⟩) :
    Alike (.down lines) ⟨lastOf previous (ts.map (Token.shift bytes lines)), rest, finish⟩
      ⟨none, ts, last⟩ ⟨previous, ts.map (Token.shift bytes lines) ++ rest, finish⟩ := by
  refine ⟨⟨_, ?_, rfl, rfl⟩, fun hend => ?_, rfl, hborders⟩
  · rw [List.forall₂_map_right_iff, List.forall₂_same]
    exact fun t _ => Motion.moves_shift bytes lines t
  · obtain ⟨t, ts, rfl⟩ := List.exists_cons_of_ne_nil (List.isEmpty_eq_false_iff.1 hend)
    exact Cursor.startsLine_of_lt fun u hu =>
      (hprevious u hu).trans_lt (Nat.lt_add_of_pos_left (hfirst t rfl))

namespace Chunk

variable {chunk : Chunk} {chunks : List Chunk} {previous : Option Token} {finish : Position}
  {bytes lines : Nat}

def cursor (chunk : Chunk) : Cursor := .ofTokens chunk.tokens

def rejected (chunk : Chunk) : Bool := !(Statement.ofTokens chunk.tokens).isOk

def stop (chunk : Chunk) : Cursor := chunk.cursor.program.2

/-- The chunk is a program, and no line of it is left to go on with behind its first token. -/
def Skippable (chunk : Chunk) : Prop :=
  chunk.rejected = false ∧
    ∀ t ∈ chunk.cursor.ahead.tail, t.kind = .elseKeyword → 0 < t.span.column

instance : DecidablePred Skippable := fun _ => inferInstanceAs (Decidable (_ ∧ _))

/-- Wherever a chunk is found out only past its end, the next one with tokens can be skipped. -/
def Separate (chunks : List Chunk) : Prop :=
  (chunks.filter (!·.cursor.atEnd)).IsChain fun chunk next =>
    chunk.rejected = true → chunk.stop.atEnd = true → next.Skippable

instance : DecidablePred Separate := fun _ => inferInstanceAs (Decidable (List.IsChain _ _))

def size (chunk : Chunk) : Nat := (Place.front.past chunk.text.toList).offset

def height (chunk : Chunk) : Nat := (Place.front.past chunk.text.toList).line - 1

def below (lines : Nat) : List Chunk → Nat
  | [] => lines
  | chunk :: chunks => below (chunk.height + lines) chunks

def laid (bytes lines : Nat) : List Chunk → List Token
  | [] => []
  | chunk :: chunks => chunk.cursor.ahead.map (Token.shift bytes lines) ++
      laid (chunk.size + bytes) (chunk.height + lines) chunks

section Layout

theorem past_shift (chunk : Chunk) (bytes lines : Nat) :
    (Place.front.shift bytes lines).past chunk.text.toList =
      Place.front.shift (chunk.size + bytes) (chunk.height + lines) := by
  have hheight : Place.front.past chunk.text.toList = Place.front.shift chunk.size chunk.height :=
    Place.past_lines chunk.endsLine
  rw [Place.shift_past, hheight]
  simp only [Place.shift, Nat.add_assoc]

theorem segmented (chunk : Chunk) : ∃ q, chunk.tokens = chunk.cursor.ahead ++ [Token.endMark q] ∧
    Token.Segmented .front chunk.text.toList chunk.cursor.ahead (.ok (Token.endMark q)) := by
  obtain ⟨ts, q, htokens, h⟩ := Token.exists_segmented_of_tokenize chunk.tokenize_eq
  have hahead : chunk.cursor.ahead = ts := by
    rw [cursor, htokens, Cursor.ahead_ofTokens h.marked.2]
  rw [hahead]
  exact ⟨q, htokens, h⟩

theorem segmented_laid (bytes lines : Nat) (chunks : List Chunk) :
    ∃ q, Token.Segmented (Place.front.shift bytes lines)
      (chunks.flatMap fun chunk : Chunk => chunk.text.toList) (laid bytes lines chunks)
      (.ok (Token.endMark q)) := by
  induction chunks generalizing bytes lines with
  | nil => exact ⟨_, .finished (.done nofun)⟩
  | cons chunk chunks ih =>
    obtain ⟨p, -, hchunk⟩ := chunk.segmented
    obtain ⟨q, hrest⟩ := ih (chunk.size + bytes) (chunk.height + lines)
    rw [← past_shift] at hrest
    exact ⟨q, (hchunk.shift bytes lines).append (.inl chunk.endsLine) hrest⟩

theorem line_bounds {t : Token} (ht : t ∈ chunk.cursor.ahead) :
    0 < t.span.line ∧ t.span.endLine ≤ chunk.height := by
  obtain ⟨q, -, hchunk⟩ := chunk.segmented
  obtain ⟨hbegin, hend⟩ := hchunk.line_bounds chunk.endsLine ht
  exact ⟨hbegin, Nat.le_sub_one_of_lt hend⟩

theorem head_tokens {t : Token} (ht : t ∈ chunk.cursor.ahead.head?) : t ∈ chunk.tokens.head? := by
  obtain ⟨q, htokens, -⟩ := chunk.segmented
  rw [htokens, List.head?_append, Option.mem_def.1 ht]
  rfl

theorem position_column (chunk : Chunk) : chunk.cursor.position.column = 0 := by
  obtain ⟨q, htokens, -⟩ := chunk.segmented
  have hfirst := chunk.first
  cases hahead : chunk.cursor.ahead with
  | nil =>
    rw [hahead, List.nil_append] at htokens
    rw [htokens] at hfirst
    rw [cursor, htokens]
    exact (hfirst _ rfl).1
  | cons t ts =>
    rw [Cursor.position, hahead]
    exact (hfirst t (head_tokens (by rw [hahead]; rfl))).1

end Layout

section Borders

theorem head_laid {t : Token} (ht : t ∈ (laid bytes lines chunks).head?) :
    lines < t.span.line ∧ ∃ chunk ∈ chunks, ∃ u ∈ chunk.tokens.head?, u.span.column = t.span.column ∧
      u.kind = t.kind := by
  induction chunks generalizing bytes lines with
  | nil => cases ht
  | cons chunk chunks ih =>
    cases hahead : chunk.cursor.ahead with
    | nil =>
      rw [laid, hahead, List.map_nil, List.nil_append] at ht
      obtain ⟨hline, other, hother, hhead⟩ := ih ht
      exact ⟨by omega, other, List.mem_cons_of_mem _ hother, hhead⟩
    | cons u us =>
      rw [laid, hahead] at ht
      obtain rfl : u.shift bytes lines = t := Option.some.inj ht
      have hline : 0 < u.span.line := (line_bounds (by rw [hahead]; exact List.mem_cons_self)).1
      exact ⟨Nat.lt_add_of_pos_left hline, chunk, List.mem_cons_self, u,
        head_tokens (by rw [hahead]; rfl), rfl, rfl⟩

theorem borders_laid (bytes : Nat) (finish : Position)
    (hcomma : ∀ chunk ∈ chunks, ∀ t ∈ chunk.tokens.head?, t.kind ≠ .comma)
    (hprevious : ∀ u ∈ previous, u.span.endLine ≤ lines) :
    Cursor.Borders ⟨previous, laid bytes lines chunks, finish⟩ := by
  intro t ht
  obtain ⟨hline, chunk, hchunk, u, hu, hcolumn, hkind⟩ := head_laid ht
  obtain ⟨ts, hlaid : laid bytes lines chunks = t :: ts⟩ := List.head?_eq_some_iff.1 ht
  obtain ⟨hleft, helse⟩ := chunk.first u hu
  rw [← hcolumn, ← hkind, hlaid]
  have hbehind : ∀ v ∈ previous, v.span.endLine < t.span.line :=
    fun v hv => (hprevious v hv).trans_lt hline
  exact ⟨Cursor.startsLine_of_lt hbehind, hleft, hcomma chunk hchunk u hu, helse⟩

theorem lastOf_shift (chunk : Chunk) (bytes : Nat)
    (hprevious : ∀ u ∈ previous, u.span.endLine ≤ lines) :
    ∀ u ∈ lastOf previous (chunk.cursor.ahead.map (Token.shift bytes lines)),
      u.span.endLine ≤ chunk.height + lines := by
  intro u hu
  rcases List.eq_nil_or_concat chunk.cursor.ahead with hahead | ⟨ts, t, hahead⟩
  · rw [hahead] at hu
    exact (hprevious u hu).trans (Nat.le_add_left _ _)
  · have ht : t ∈ chunk.cursor.ahead := by simp [hahead]
    rw [hahead, List.concat_eq_append, List.map_append, lastOf_append] at hu
    obtain rfl : t.shift bytes lines = u := Option.some.inj hu
    exact Nat.add_le_add_right (line_bounds ht).2 lines

theorem alike {rest : List Token} (hprevious : ∀ u ∈ previous, u.span.endLine ≤ lines)
    (hborders : Cursor.Borders ⟨lastOf previous (chunk.cursor.ahead.map (Token.shift bytes lines)),
      rest, finish⟩) :
    Alike (.down lines)
      ⟨lastOf previous (chunk.cursor.ahead.map (Token.shift bytes lines)), rest, finish⟩ chunk.cursor
      ⟨previous, chunk.cursor.ahead.map (Token.shift bytes lines) ++ rest, finish⟩ :=
  alike_shift bytes (fun _ ht => (line_bounds (List.mem_of_mem_head? ht)).1) hprevious hborders

end Borders

section Outcomes

theorem rejected_of_error {e : SyntaxError} (h : Statement.ofTokens chunk.tokens = .error e) :
    chunk.rejected = true := by
  rw [rejected, h]
  rfl

theorem accepted_of_atEnd (h : chunk.cursor.atEnd = true) : chunk.rejected = false := by
  have hprogram := Cursor.program_of_atEnd rfl .refl h
  rw [rejected, show Statement.ofTokens chunk.tokens = _ from congrArg Prod.fst hprogram]
  rfl

/-- The outcomes of reading chunks so many lines down: for each its statements, or some statements and one
error. Chunks that are skipped have none. -/
inductive Outcomes : Nat → List Chunk → List (Except SyntaxError Statement) → Prop where
  | nil {lines : Nat} : Outcomes lines [] []
  | program {lines : Nat} {chunk : Chunk} {chunks : List Chunk} {ss : List Statement}
      {outcomes : List (Except SyntaxError Statement)}
      (h : Statement.ofTokens chunk.tokens = .ok (.block ss))
      (hrest : Outcomes (chunk.height + lines) chunks outcomes) :
      Outcomes lines (chunk :: chunks) (ss.map .ok ++ outcomes)
  | malformed {lines : Nat} {chunk : Chunk} {chunks : List Chunk} {e : SyntaxError}
      {outcomes : List (Except SyntaxError Statement)} (ss : List Statement)
      (h : Statement.ofTokens chunk.tokens = .error e) (hinside : chunk.stop.atEnd = false)
      (hrest : Outcomes (chunk.height + lines) chunks outcomes) :
      Outcomes lines (chunk :: chunks)
        (ss.map .ok ++ .error ((Motion.down lines).error e.recovered) :: outcomes)
  | hanging {lines : Nat} {chunk : Chunk} {skipped chunks : List Chunk} {e : SyntaxError}
      {outcomes : List (Except SyntaxError Statement)} (ss : List Statement) (e' : SyntaxError)
      (h : Statement.ofTokens chunk.tokens = .error e) (hend : chunk.stop.atEnd = true)
      (hskipped : ∀ next ∈ skipped, next.rejected = false)
      (hrest : Outcomes (below (chunk.height + lines) skipped) chunks outcomes) :
      Outcomes lines (chunk :: (skipped ++ chunks)) (ss.map .ok ++ .error e' :: outcomes)

variable {m : Motion} {b c' : Cursor}

theorem atEnd_resume {c : Cursor} (hsuffix : c.ahead <:+ chunk.cursor.ahead)
    (helse : ∀ t ∈ c.ahead.tail, t.kind = .elseKeyword → 0 < t.span.column) :
    (c.resume 0).atEnd = true := by
  obtain ⟨q, htokens, hchunk⟩ := chunk.segmented
  have hlater := chunk.later
  rw [htokens] at hlater
  apply Cursor.atEnd_resume
  apply (hlater.left_of_append.suffix hsuffix).imp_of_mem_tail_imp
  intro t u _ hu hindented hline
  rcases hindented hline with hcolumn | hkind | hkind
  · exact hcolumn
  · exact helse u hu hkind
  · exact absurd hkind (hchunk.marked.2 u (hsuffix.subset (List.mem_of_mem_tail hu)))

/-- Behind the first token of what is laid out, recovery goes on with what follows the chunk it is in. -/
theorem resume_laid (bytes : Nat) (finish : Position)
    (hcomma : ∀ chunk ∈ chunks, ∀ t ∈ chunk.tokens.head?, t.kind ≠ .comma)
    (hskip : ∀ next ∈ (chunks.filter (!·.cursor.atEnd)).head?, next.Skippable)
    (hprevious : ∀ u ∈ previous, u.span.endLine ≤ lines) :
    ∃ skipped rest previous' bytes', chunks = skipped ++ rest ∧
      (∀ next ∈ skipped, next.rejected = false) ∧
      (∀ u ∈ previous', u.span.endLine ≤ below lines skipped) ∧
      (Cursor.mk previous (laid bytes lines chunks) finish).resume 0 =
        ⟨previous', laid bytes' (below lines skipped) rest, finish⟩ := by
  induction chunks generalizing previous bytes lines with
  | nil => exact ⟨[], [], previous, bytes, rfl, nofun, hprevious, Cursor.resume_of_atEnd rfl 0⟩
  | cons next chunks ih =>
    have hcomma' : ∀ chunk ∈ chunks, ∀ t ∈ chunk.tokens.head?, t.kind ≠ .comma :=
      fun other h => hcomma other (List.mem_cons_of_mem _ h)
    cases hend : next.cursor.atEnd with
    | true =>
      rw [List.filter_cons_of_neg (by rw [hend]; decide)] at hskip
      have hahead : next.cursor.ahead = [] := List.isEmpty_iff.1 hend
      have hhere : laid bytes lines (next :: chunks) =
          laid (next.size + bytes) (next.height + lines) chunks := by
        rw [laid, hahead]
        rfl
      obtain ⟨skipped, rest, previous', bytes', rfl, haccepted, hbefore, hresume⟩ :=
        ih (next.size + bytes) hcomma' hskip
          fun u hu => (hprevious u hu).trans (Nat.le_add_left lines next.height)
      refine ⟨next :: skipped, rest, previous', bytes', rfl, ?_, hbefore, hhere ▸ hresume⟩
      exact List.forall_mem_cons.2 ⟨accepted_of_atEnd hend, haccepted⟩
    | false =>
      rw [List.filter_cons_of_pos (by rw [hend]; decide)] at hskip
      obtain ⟨haccepted, helse⟩ := hskip next rfl
      have hbehind := lastOf_shift next bytes hprevious
      have halike := alike hprevious (borders_laid (next.size + bytes) finish hcomma' hbehind)
      have hresume := (Cursor.alike_resume halike (.inl hend) 0).atEnd
        (atEnd_resume (List.suffix_refl _) helse)
      exact ⟨[next], chunks, _, _, rfl, by simpa using haccepted, hbehind, hresume⟩

theorem outcomes_cons (h : Alike (.down lines) b chunk.cursor c')
    (helse : ∀ t ∈ chunk.stop.ahead.tail, t.kind = .elseKeyword → 0 < t.span.column)
    (hrest : Outcomes (chunk.height + lines) chunks (b.topLevelStatements 0).1)
    (hskip : chunk.rejected = true → chunk.stop.atEnd = true → ∃ skipped rest,
      chunks = skipped ++ rest ∧ (∀ next ∈ skipped, next.rejected = false) ∧
        Outcomes (below (chunk.height + lines) skipped) rest ((b.resume 0).topLevelStatements 0).1) :
    Outcomes lines (chunk :: chunks) (c'.topLevelStatements 0).1 := by
  rcases chunk.cursor.program_eq with ⟨ss, d, hprogram⟩ | ⟨e, x, hprogram⟩
  · have hok : Statement.ofTokens chunk.tokens = .ok (.block ss) := congrArg Prod.fst hprogram
    have houtcomes := Cursor.outcomes_of_program h chunk.position_column hok
    exact houtcomes ▸ .program hok hrest
  · have herror : Statement.ofTokens chunk.tokens = .error e := congrArg Prod.fst hprogram
    have hstop : chunk.stop = x := congrArg Prod.snd hprogram
    obtain ⟨ss, e', x', hx, hmoved, houtcomes⟩ :=
      Cursor.outcomes_of_error h chunk.position_column hprogram
    rw [show (Motion.down lines).column 0 = 0 from rfl] at houtcomes
    subst hstop
    cases hend : chunk.stop.atEnd with
    | false =>
      obtain rfl := hmoved hend
      have hresume := (Cursor.alike_resume hx (.inl hend) 0).atEnd
        (atEnd_resume (Cursor.ahead_program h) helse)
      rw [show x'.resume 0 = b from hresume] at houtcomes
      exact houtcomes ▸ .malformed ss herror hend hrest
    | true =>
      obtain rfl := hx.atEnd hend
      obtain ⟨skipped, rest, rfl, hskipped, hbehind⟩ := hskip (rejected_of_error herror) hend
      exact houtcomes ▸ .hanging ss e' herror hend hskipped hbehind

theorem outcomes_laid (bytes : Nat) (finish : Position)
    (hcomma : ∀ chunk ∈ chunks.tail, ∀ t ∈ chunk.tokens.head?, t.kind ≠ .comma)
    (hseparate : Separate chunks)
    (helse : ∀ chunk ∈ chunks, ∀ t ∈ chunk.stop.ahead.tail, t.kind = .elseKeyword → 0 < t.span.column)
    (hprevious : ∀ u ∈ previous, u.span.endLine ≤ lines) :
    Outcomes lines chunks
      ((Cursor.mk previous (laid bytes lines chunks) finish).topLevelStatements 0).1 := by
  -- What is skipped may be several chunks, so the induction is on their number.
  induction hlength : chunks.length using Nat.strongRecOn
    generalizing chunks previous bytes lines with
  | ind length ih =>
  cases chunks with
  | nil =>
    rw [Cursor.topLevelStatements_atEnd rfl]
    exact .nil
  | cons chunk chunks =>
    rw [List.tail_cons] at hcomma
    have hbehind := lastOf_shift chunk bytes hprevious
    have halike := alike hprevious (borders_laid (chunk.size + bytes) finish hcomma hbehind)
    have hchunks : chunks.length < length := hlength ▸ Nat.lt_succ_self _
    have hread {rest : List Chunk} (hsuffix : rest <:+ chunks) {previous : Option Token} {lines : Nat}
        (bytes : Nat) (hprevious : ∀ u ∈ previous, u.span.endLine ≤ lines) : Outcomes lines rest
          ((Cursor.mk previous (laid bytes lines rest) finish).topLevelStatements 0).1 := by
      refine ih rest.length (hsuffix.length_le.trans_lt hchunks) bytes
        (fun other h => hcomma other (hsuffix.subset (List.mem_of_mem_tail h))) ?_
        (fun other h => helse other (List.mem_cons_of_mem _ (hsuffix.subset h))) hprevious rfl
      exact hseparate.suffix ((hsuffix.trans (List.suffix_cons chunk chunks)).filter _)
    refine outcomes_cons halike (helse chunk List.mem_cons_self)
      (hread (List.suffix_refl _) _ hbehind) fun hrejected hend => ?_
    have hskip : ∀ next ∈ (chunks.filter (!·.cursor.atEnd)).head?, next.Skippable := by
      have htokens : chunk.cursor.atEnd = false := by
        by_contra hnone
        rw [accepted_of_atEnd (by simpa using hnone)] at hrejected
        cases hrejected
      rw [Separate, List.filter_cons_of_pos (by rw [htokens]; decide), List.isChain_cons] at hseparate
      exact fun next hnext => hseparate.1 next hnext hrejected hend
    obtain ⟨skipped, rest, previous', bytes', heq, haccepted, hbefore, hresume⟩ :=
      resume_laid (chunk.size + bytes) finish hcomma hskip hbehind
    refine ⟨skipped, rest, heq, haccepted, ?_⟩
    rw [hresume]
    exact hread (heq ▸ List.suffix_append skipped rest) bytes' hbefore

end Outcomes

section Reports

variable {outcomes : List (Except SyntaxError Statement)}

theorem Outcomes.length_reportedErrors (h : Outcomes lines chunks outcomes) :
    (reportedErrors (Cursor.gather outcomes)).length = chunks.countP rejected := by
  induction h with
  | nil => rfl
  | @program lines chunk chunks ss outcomes h _ ih =>
    have haccepted : ¬ chunk.rejected = true := by
      rw [rejected, h]
      exact Bool.false_ne_true
    rw [Cursor.gather_append_ok, reportedErrors_map, ih, List.countP_cons_of_neg haccepted]
  | malformed ss h _ _ ih =>
    rw [Cursor.gather_append_ok, reportedErrors_map, Cursor.reportedErrors_gather_error,
      List.length_cons, ih, List.countP_cons_of_pos (rejected_of_error h)]
  | @hanging lines chunk skipped chunks e outcomes ss e' h _ hskipped _ ih =>
    have hnone : skipped.countP rejected = 0 :=
      List.countP_eq_zero.2 fun next hnext => by rw [hskipped next hnext]; exact Bool.false_ne_true
    rw [Cursor.gather_append_ok, reportedErrors_map, Cursor.reportedErrors_gather_error,
      List.length_cons, ih, List.countP_cons_of_pos (rejected_of_error h), List.countP_append, hnone,
      Nat.zero_add]

theorem Outcomes.gather_eq (h : Outcomes lines chunks outcomes)
    (haccepted : ∀ chunk ∈ chunks, chunk.rejected = false) :
    ∃ sss, List.Forall₂ (fun chunk ss => Statement.ofTokens chunk.tokens = .ok (.block ss)) chunks sss ∧
      Cursor.gather outcomes = .ok sss.flatten := by
  induction h with
  | nil => exact ⟨[], .nil, rfl⟩
  | @program lines chunk chunks ss outcomes h _ ih =>
    obtain ⟨sss, hsss, hgather⟩ := ih fun other h => haccepted other (List.mem_cons_of_mem _ h)
    refine ⟨ss :: sss, .cons h hsss, ?_⟩
    rw [Cursor.gather_append_ok, hgather, List.flatten_cons]
    rfl
  | malformed ss h | hanging ss e' h =>
    have hrejected := rejected_of_error h
    rw [haccepted _ List.mem_cons_self] at hrejected
    cases hrejected

def errors (lines : Nat) : List Chunk → List SyntaxError
  | [] => []
  | chunk :: chunks =>
    match Statement.ofTokens chunk.tokens with
    | .ok _ => errors (chunk.height + lines) chunks
    | .error e => (Motion.down lines).error e.recovered :: errors (chunk.height + lines) chunks

theorem Outcomes.reportedErrors_eq (h : Outcomes lines chunks outcomes)
    (hinside : ∀ chunk ∈ chunks, chunk.rejected = true → chunk.stop.atEnd = false) :
    reportedErrors (Cursor.gather outcomes) = errors lines chunks := by
  induction h with
  | nil => rfl
  | program h _ ih =>
    rw [Cursor.gather_append_ok, reportedErrors_map, errors, h,
      ih fun other h => hinside other (List.mem_cons_of_mem _ h)]
  | malformed ss h _ _ ih =>
    rw [Cursor.gather_append_ok, reportedErrors_map, Cursor.reportedErrors_gather_error, errors, h,
      ih fun other h => hinside other (List.mem_cons_of_mem _ h)]
  | hanging ss e' h hend =>
    rw [hinside _ List.mem_cons_self (rejected_of_error h)] at hend
    cases hend

end Reports

section Join

theorem recovering_laid (chunks : List Chunk) (finish : Position) :
    (Cursor.mk none (laid 0 0 chunks) finish).recovering.1 =
      (Cursor.gather ((Cursor.mk none (laid 0 0 chunks) finish).topLevelStatements 0).1).map .block := by
  have hrecovering (c : Cursor) : c.recovering.1 =
    (Cursor.gather (c.topLevelStatements c.position.column).1).map .block := rfl
  rw [hrecovering]
  cases hahead : laid 0 0 chunks with
  | nil => rw [Cursor.topLevelStatements_atEnd rfl, Cursor.topLevelStatements_atEnd rfl]
  | cons t ts =>
    have hhead : t ∈ (laid 0 0 chunks).head? := by rw [hahead]; rfl
    obtain ⟨-, chunk, -, u, hu, hcolumn, -⟩ := head_laid hhead
    have hleft : (Cursor.mk none (t :: ts) finish).position.column = 0 :=
      hcolumn.symm.trans (chunk.first u hu).1
    rw [hleft]

theorem exists_tokens_join (chunks : List Chunk) : ∃ q,
    Token.tokenize (String.join (chunks.map text)) = .ok (laid 0 0 chunks ++ [Token.endMark q]) ∧
      ∃ finish, Cursor.ofTokens (laid 0 0 chunks ++ [Token.endMark q]) =
        ⟨none, laid 0 0 chunks, finish⟩ := by
  obtain ⟨q, hlaid⟩ := segmented_laid 0 0 chunks
  refine ⟨q, ?_, _, Cursor.ofTokens_append hlaid.marked.2 rfl []⟩
  rw [Token.tokenize, Token.Stream.ofString, String.toList_join, List.flatMap_map]
  exact hlaid.tokens_eq

section

variable (chunks : List Chunk)
  (hcomma : ∀ chunk ∈ chunks.tail, ∀ t ∈ chunk.tokens.head?, t.kind ≠ .comma)
  (helse : ∀ chunk ∈ chunks, ∀ t ∈ chunk.stop.ahead.tail, t.kind = .elseKeyword → 0 < t.span.column)
include hcomma helse

theorem outcomes_join (hseparate : Separate chunks) :
    ∃ ts outcomes, Token.tokenize (String.join (chunks.map text)) = .ok ts ∧
      Outcomes 0 chunks outcomes ∧
      Statement.ofTokensRecovering ts = (Cursor.gather outcomes).map .block := by
  obtain ⟨q, htokens, finish, hcursor⟩ := exists_tokens_join chunks
  refine ⟨_, _, htokens, outcomes_laid 0 finish hcomma hseparate helse
    (nofun : ∀ u ∈ (none : Option Token), u.span.endLine ≤ 0), ?_⟩
  rw [Statement.ofTokensRecovering, hcursor, recovering_laid]

/-- Where every malformed chunk is found out inside, its error is reported as it is for the chunk alone,
further down. -/
theorem reportedErrors_join
    (hinside : ∀ chunk ∈ chunks, chunk.rejected = true → chunk.stop.atEnd = false) :
    ∃ ts, Token.tokenize (String.join (chunks.map text)) = .ok ts ∧
      reportedErrors (Statement.ofTokensRecovering ts) = errors 0 chunks := by
  have hseparate : Separate chunks := by
    apply List.Pairwise.isChain
    apply List.pairwise_of_forall_mem_list
    intro chunk hchunk next _ hrejected hend
    rw [hinside chunk (List.mem_of_mem_filter hchunk) hrejected] at hend
    cases hend
  obtain ⟨ts, outcomes, htokens, houtcomes, hrecovering⟩ :=
    outcomes_join chunks hcomma helse hseparate
  refine ⟨ts, htokens, ?_⟩
  rw [hrecovering, reportedErrors_map, houtcomes.reportedErrors_eq hinside]

/-- Recovery reports one error for each chunk that is no program, and if there is none it reads the
statements of all chunks in order. No chunk but the first begins with a comma, a chunk behind one that is
found out past its end can be skipped, and behind where it is found out no chunk has an `else` at the left
margin. -/
theorem recovering_join (hseparate : Separate chunks) :
    ∃ ts, Token.tokenize (String.join (chunks.map text)) = .ok ts ∧
      (reportedErrors (Statement.ofTokensRecovering ts)).length = chunks.countP rejected ∧
      ((∀ chunk ∈ chunks, chunk.rejected = false) → ∃ sss,
        List.Forall₂ (fun chunk ss => Statement.ofTokens chunk.tokens = .ok (.block ss)) chunks sss ∧
          Statement.ofTokensRecovering ts = .ok (.block sss.flatten)) := by
  obtain ⟨ts, outcomes, htokens, houtcomes, hrecovering⟩ := outcomes_join chunks hcomma helse hseparate
  refine ⟨ts, htokens, ?_, fun haccepted => ?_⟩
  · rw [hrecovering, reportedErrors_map, houtcomes.length_reportedErrors]
  · obtain ⟨sss, hsss, hgather⟩ := houtcomes.gather_eq haccepted
    refine ⟨sss, hsss, ?_⟩
    rw [hrecovering, hgather]
    rfl

end

end Join

section Examples

def branches : Chunk where
  text := "if a:\n  print 1\nelse:\n  print 2\n"
  tokens := [⟨.ifKeyword, "if", ⟨0, 2, 1, 0, 1⟩⟩, ⟨.identifier, "a", ⟨3, 4, 1, 3, 1⟩⟩,
    ⟨.colon, ":", ⟨4, 5, 1, 4, 1⟩⟩, ⟨.print, "print", ⟨8, 13, 2, 2, 2⟩⟩,
    ⟨.integer, "1", ⟨14, 15, 2, 8, 2⟩⟩, ⟨.elseKeyword, "else", ⟨16, 20, 3, 0, 3⟩⟩,
    ⟨.colon, ":", ⟨20, 21, 3, 4, 3⟩⟩, ⟨.print, "print", ⟨24, 29, 4, 2, 4⟩⟩,
    ⟨.integer, "2", ⟨30, 31, 4, 8, 4⟩⟩, ⟨.eof, "", ⟨32, 32, 5, 0, 5⟩⟩]
  tokenize_eq := by cbv
  endsLine := by simp [EndsLine]
  first := by simp
  later := by simp

def unopened : Chunk where
  text := "y = )\n"
  tokens := [⟨.identifier, "y", ⟨0, 1, 1, 0, 1⟩⟩, ⟨.assign, "=", ⟨2, 3, 1, 2, 1⟩⟩,
    ⟨.rparen, ")", ⟨4, 5, 1, 4, 1⟩⟩, ⟨.eof, "", ⟨6, 6, 2, 0, 2⟩⟩]
  tokenize_eq := by cbv
  endsLine := by simp [EndsLine]
  first := by simp
  later := by simp

def hanging : Chunk where
  text := "print 1 +\n"
  tokens := [⟨.print, "print", ⟨0, 5, 1, 0, 1⟩⟩, ⟨.integer, "1", ⟨6, 7, 1, 6, 1⟩⟩,
    ⟨.plus, "+", ⟨8, 9, 1, 8, 1⟩⟩, ⟨.eof, "", ⟨10, 10, 2, 0, 2⟩⟩]
  tokenize_eq := by cbv
  endsLine := by simp [EndsLine]
  first := by simp
  later := by simp

def printed : Chunk where
  text := "print y\n"
  tokens := [⟨.print, "print", ⟨0, 5, 1, 0, 1⟩⟩, ⟨.identifier, "y", ⟨6, 7, 1, 6, 1⟩⟩,
    ⟨.eof, "", ⟨8, 8, 2, 0, 2⟩⟩]
  tokenize_eq := by cbv
  endsLine := by simp [EndsLine]
  first := by simp
  later := by simp

theorem recovering_join_hangingLast :
    ∃ ts, Token.tokenize
        (String.join ([branches, hanging, printed, unopened, printed, hanging].map text)) = .ok ts ∧
      (reportedErrors (Statement.ofTokensRecovering ts)).length = 3 := by
  obtain ⟨ts, htokens, hcount, -⟩ := recovering_join
    [branches, hanging, printed, unopened, printed, hanging] (by decide) (by decide) (by decide)
  exact ⟨ts, htokens, hcount⟩

/-- An error at the very end of a chunk takes the next one with it. -/
theorem not_recovering_join_hangingFirst :
    ¬ ∀ chunks : List Chunk, ∃ ts, Token.tokenize (String.join (chunks.map text)) = .ok ts ∧
      (reportedErrors (Statement.ofTokensRecovering ts)).length = chunks.countP rejected := by
  intro h
  obtain ⟨ts, htokens, hcount⟩ := h [hanging, unopened]
  have hjoined : Token.tokenize (String.join ([hanging, unopened].map text)) =
      .ok (hanging.tokens.take 3 ++ unopened.tokens.map (Token.shift 10 1)) := by cbv
  rw [hjoined] at htokens
  cases htokens
  have hone : (reportedErrors (Statement.ofTokensRecovering
      (hanging.tokens.take 3 ++ unopened.tokens.map (Token.shift 10 1)))).length = 1 := by cbv
  have htwo : [hanging, unopened].countP rejected = 2 := by decide
  rw [hone, htwo] at hcount
  cases hcount

end Examples

end Chunk

end IntScript
