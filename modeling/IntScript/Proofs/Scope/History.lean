import IntScript.Proofs.Scope.View
import Mathlib.Data.List.Basic

/-!
# Lookups and the history of the scopes

What a name means in a scope can be told from what was done to the scopes, without the scopes: it is the
latest value the name was given there since the scope was pushed, or else what it means in the parent the
scope was pushed with. An index may have had other scopes before. They were popped, perhaps several at
once, and nothing of them is left.
-/

namespace IntScript

/-- Where one place of the list has been given something, either that makes no difference or it is the
first place that has anything. -/
theorem findSome?_given {ι α : Type} {f g : ι → Option α} {i : ι}
    (hother : ∀ j, j ≠ i → g j = f j) (is : List ι) :
    is.findSome? g = is.findSome? f ∨
      ∃ near far, is = near ++ i :: far ∧ ∀ j ∈ near, f j = none := by
  induction is with
  | nil => exact .inl rfl
  | cons j is ih =>
    by_cases hj : j = i
    · exact .inr ⟨[], is, by rw [hj, List.nil_append], nofun⟩
    · rw [List.findSome?_cons, List.findSome?_cons, hother j hj]
      cases hf : f j with
      | some y => exact .inl rfl
      | none =>
        rcases ih with hsame | ⟨near, far, his, hnear⟩
        · exact .inl hsame
        · refine .inr ⟨j :: near, far, by rw [his, List.cons_append], ?_⟩
          exact List.forall_mem_cons.2 ⟨hf, hnear⟩

namespace Arena

inductive Step where
  | push (parent : Handle)
  | pop (h : Handle)
  | define (h : Handle) (name : String) (value : Word)
  | defineFunction (h : Handle) (f : Function)

namespace Step

def apply (a : Arena) : Step → Except Fault Arena
  | push parent => .ok (a.push parent).1
  | pop h => .ok (a.pop h)
  | define h name value => a.define h name value
  | defineFunction h f => a.defineFunction h f

/-- With so many scopes, the step is one through a scope that is there, or a pop but not of the global
scope. -/
def Allowed (n : Nat) : Step → Prop
  | push parent => parent.index < n
  | pop h => 0 < h.index
  | define h _ _ => h.index < n
  | defineFunction h _ => h.index < n

def value? (h : Handle) (name : String) : Step → Option Word
  | define h' name' value => if h' = h ∧ name' = name then some value else none
  | _ => none

def function? (h : Handle) (name : String) : Step → Option Function
  | defineFunction h' f => if h' = h ∧ f.name = name then some f else none
  | _ => none

end Step

/-- What was done to a fresh arena, the latest step first. -/
abbrev History := List Step

namespace History

def arena : History → Except Fault Arena
  | [] => .ok .fresh
  | step :: past => do
    let a ← arena past
    step.apply a

/-- How many scopes there are. Popping one that is not there changes nothing. -/
def depth : History → Nat
  | [] => 1
  | .push _ :: past => depth past + 1
  | .pop h :: past => min h.index (depth past)
  | _ :: past => depth past

def Legal : History → Prop
  | [] => True
  | step :: past => step.Allowed (depth past) ∧ Legal past

def parent? : History → Handle → Option Handle
  | [], _ => none
  | .push parent :: past, h => if depth past = h.index then some parent else parent? past h
  | _ :: past, h => parent? past h

/-- What was done since the scope was pushed. The global scope is there from the start. -/
def since : History → Handle → History
  | [], _ => []
  | .push parent :: past, h => if depth past = h.index then [] else .push parent :: since past h
  | step :: past, h => step :: since past h

def value? (H : History) (h : Handle) (name : String) : Option Word :=
  (H.since h).findSome? (Step.value? h name)

def function? (H : History) (h : Handle) (name : String) : Option Function :=
  (H.since h).findSome? (Step.function? h name)

def chain : History → Handle → List Handle
  | [], h => [h]
  | .push parent :: past, h => if depth past = h.index then h :: chain past parent else chain past h
  | _ :: past, h => chain past h

variable {H : History} {h k p : Handle} {name : String}

theorem value?_push : value? (.push p :: H) h name =
    if H.depth = h.index then none else H.value? h name := by
  rw [value?, since]
  split
  · rfl
  · rfl

theorem function?_push : function? (.push p :: H) h name =
    if H.depth = h.index then none else H.function? h name := by
  rw [function?, since]
  split
  · rfl
  · rfl

theorem value?_define {value : Word} {other : String} :
    value? (.define k name value :: H) h other =
      if k = h ∧ name = other then some value else H.value? h other := by
  by_cases hgiven : k = h ∧ name = other
  · simp [value?, since, Step.value?, hgiven]
  · simp [value?, since, Step.value?, hgiven]

theorem function?_defineFunction {f : Function} {other : String} :
    function? (.defineFunction k f :: H) h other =
      if k = h ∧ f.name = other then some f else H.function? h other := by
  by_cases hgiven : k = h ∧ f.name = other
  · simp [function?, since, Step.function?, hgiven]
  · simp [function?, since, Step.function?, hgiven]

theorem parent?_lt (hH : H.Legal) (hp : H.parent? h = some p) : p.index < h.index := by
  induction H with
  | nil => cases hp
  | cons step past ih =>
    obtain ⟨hstep, hpast⟩ := hH
    cases step with
    | push parent =>
      rw [parent?] at hp
      split at hp
      next hindex =>
        cases hp
        rw [← hindex]
        exact hstep
      next => exact ih hpast hp
    | pop h => exact ih hpast hp
    | define h name value => exact ih hpast hp
    | defineFunction h f => exact ih hpast hp

theorem index_eq_zero_of_parent? (hlive : h.index < H.depth) (hp : H.parent? h = none) :
    h.index = 0 := by
  induction H with
  | nil => exact Nat.lt_one_iff.1 hlive
  | cons step past ih =>
    cases step with
    | push parent =>
      rw [parent?] at hp
      split at hp
      next => cases hp
      next hindex =>
        rw [depth] at hlive
        exact ih (by omega) hp
    | pop h => exact ih (Nat.lt_min.1 hlive).2 hp
    | define h name value => exact ih hlive hp
    | defineFunction h f => exact ih hlive hp

theorem chain_push_of_lt (hlive : h.index < H.depth) : chain (.push p :: H) h = H.chain h :=
  if_neg (Nat.ne_of_gt hlive)

theorem chain_eq (hH : H.Legal) (hlive : h.index < H.depth) :
    H.chain h = h :: (H.parent? h).elim [] H.chain := by
  induction H generalizing h with
  | nil => rfl
  | cons step past ih =>
    obtain ⟨hstep, hpast⟩ := hH
    cases step with
    | push parent =>
      by_cases hindex : depth past = h.index
      · have hparent : chain (.push parent :: past) parent = chain past parent :=
          chain_push_of_lt hstep
        rw [chain, parent?, if_pos hindex, if_pos hindex, Option.elim_some, hparent]
      · have hbelow : h.index < depth past := by
          rw [depth] at hlive
          omega
        rw [chain, parent?, if_neg hindex, if_neg hindex, ih hpast hbelow]
        cases hp : parent? past h with
        | none => rfl
        | some p =>
          have hlt := parent?_lt hpast hp
          rw [Option.elim_some, Option.elim_some, chain_push_of_lt (by omega)]
    | pop k => exact ih hpast (Nat.lt_min.1 hlive).2
    | define k name value => exact ih hpast hlive
    | defineFunction k f => exact ih hpast hlive

structure Tells (H : History) (h : Handle) (s : Scope) : Prop where
  parent : s.parent = H.parent? h
  values : ∀ name, s.values.find? name = H.value? h name
  functions : ∀ name, s.functions.find? name = H.function? h name

/-- The arena holds the scopes the history tells of and no others. -/
structure Records (H : History) (a : Arena) : Prop where
  depth_eq : a.depth = H.depth
  tells : ∀ (h : Handle) (s : Scope), a.scopes[h.index]? = some s → H.Tells h s

variable {a b : Arena}

theorem records_fresh : Records [] .fresh := by
  refine ⟨rfl, fun h s hs => ?_⟩
  obtain ⟨_ | i⟩ := h
  · cases hs
    exact ⟨rfl, fun _ => rfl, fun _ => rfl⟩
  · simp [fresh] at hs

theorem Records.push (ha : Records H a) (p : Handle) : Records (.push p :: H) (a.push p).1 := by
  have hsize : a.scopes.size = depth H := ha.depth_eq
  constructor
  · simp [Arena.push, Arena.depth, depth, hsize]
  · intro h s hs
    simp only [Arena.push, Array.getElem?_push, hsize] at hs
    split at hs
    next hindex =>
      cases hs
      refine ⟨(if_pos hindex.symm).symm, fun name => ?_, fun name => ?_⟩
      · rw [value?_push, if_pos hindex.symm]
        rfl
      · rw [function?_push, if_pos hindex.symm]
        rfl
    next hindex =>
      have htells := ha.tells h s hs
      refine ⟨htells.parent.trans (if_neg (Ne.symm hindex)).symm, fun name => ?_, fun name => ?_⟩
      · rw [value?_push, if_neg (Ne.symm hindex), htells.values]
      · rw [function?_push, if_neg (Ne.symm hindex), htells.functions]

theorem Records.pop (ha : Records H a) (hk : 0 < k.index) : Records (.pop k :: H) (a.pop k) := by
  have hsize : a.scopes.size = depth H := ha.depth_eq
  have hmax : max k.index 1 = k.index := Nat.max_eq_left hk
  constructor
  · rw [Arena.pop, Arena.depth, hmax, depth, ← hsize, Array.take_eq_extract, Array.size_extract]
    omega
  · intro h s hs
    rw [Arena.pop, hmax, Array.take_eq_extract, Array.getElem?_extract] at hs
    split at hs
    next =>
      rw [Nat.zero_add] at hs
      obtain ⟨hparent, hvalues, hfunctions⟩ := ha.tells h s hs
      exact ⟨hparent, hvalues, hfunctions⟩
    next => cases hs

theorem Records.update (ha : Records H a) {step : Step} {f : Scope → Scope}
    (hu : a.update k f = .ok b) (hsize : b.depth = a.depth) (hdepth : depth (step :: H) = H.depth)
    (hown : ∀ s, H.Tells k s → Tells (step :: H) k (f s))
    (hother : ∀ h s, h ≠ k → H.Tells h s → Tells (step :: H) h s) : Records (step :: H) b := by
  refine ⟨by rw [hsize, ha.depth_eq, hdepth], fun h t ht => ?_⟩
  rw [getElem?_update hu] at ht
  split at ht
  next hindex =>
    obtain rfl : k = h := congrArg Handle.mk hindex
    obtain ⟨s, hs, rfl⟩ := Option.map_eq_some_iff.1 ht
    exact hown s (ha.tells k s hs)
  next hindex =>
    have hne : h ≠ k := fun heq => hindex (congrArg Handle.index heq.symm)
    exact hother h t hne (ha.tells h t ht)

theorem Records.define (ha : Records H a) {value : Word} (hd : a.define k name value = .ok b) :
    Records (.define k name value :: H) b := by
  apply ha.update hd (frame_define hd).depth_eq rfl
  · rintro s ⟨hparent, hvalues, hfunctions⟩
    refine ⟨hparent, fun other => ?_, hfunctions⟩
    rw [value?_define, Bindings.find?_insert, hvalues]
    simp only [true_and, eq_comm]
  · rintro h s hne ⟨hparent, hvalues, hfunctions⟩
    refine ⟨hparent, fun other => ?_, hfunctions⟩
    rw [value?_define, if_neg (fun hgiven => hne hgiven.1.symm), hvalues]

theorem Records.defineFunction (ha : Records H a) {f : Function}
    (hd : a.defineFunction k f = .ok b) : Records (.defineFunction k f :: H) b := by
  apply ha.update hd (frame_defineFunction hd).depth_eq rfl
  · rintro s ⟨hparent, hvalues, hfunctions⟩
    refine ⟨hparent, hvalues, fun other => ?_⟩
    rw [function?_defineFunction, Bindings.find?_insert, hfunctions]
    simp only [true_and, eq_comm]
  · rintro h s hne ⟨hparent, hvalues, hfunctions⟩
    refine ⟨hparent, hvalues, fun other => ?_⟩
    rw [function?_defineFunction, if_neg (fun hgiven => hne hgiven.1.symm), hfunctions]

theorem Records.step (ha : Records H a) {step : Step} (hstep : step.Allowed H.depth) :
    ∃ b, step.apply a = .ok b ∧ Records (step :: H) b := by
  rw [← ha.depth_eq] at hstep
  cases step with
  | push p => exact ⟨_, rfl, ha.push p⟩
  | pop k => exact ⟨_, rfl, ha.pop hstep⟩
  | define k name value =>
    obtain ⟨b, hb⟩ : ∃ b, a.define k name value = .ok b := ⟨_, if_pos hstep⟩
    exact ⟨b, hb, ha.define hb⟩
  | defineFunction k f =>
    obtain ⟨b, hb⟩ : ∃ b, a.defineFunction k f = .ok b := ⟨_, if_pos hstep⟩
    exact ⟨b, hb, ha.defineFunction hb⟩

theorem exists_records (hH : H.Legal) : ∃ a, H.arena = .ok a ∧ Records H a := by
  induction H with
  | nil => exact ⟨_, rfl, records_fresh⟩
  | cons step past ih =>
    obtain ⟨hstep, hpast⟩ := hH
    obtain ⟨a, harena, ha⟩ := ih hpast
    obtain ⟨b, happly, hb⟩ := ha.step hstep
    refine ⟨b, ?_, hb⟩
    rw [arena, harena]
    exact happly

theorem Records.wellFormed (ha : Records H a) (hH : H.Legal) : a.WellFormed := by
  intro i s hs
  have hlive : i < depth H := by
    rw [← ha.depth_eq]
    exact (Array.getElem?_eq_some_iff.1 hs).1
  rw [(ha.tells ⟨i⟩ s hs).parent]
  cases hp : H.parent? ⟨i⟩ with
  | none => exact index_eq_zero_of_parent? hlive hp
  | some p => exact parent?_lt hH hp

theorem Records.search (ha : Records H a) (hH : H.Legal) {α : Type} {pick : Scope → Option α}
    {own : Handle → Option α} (hpick : ∀ h s, a.scopes[h.index]? = some s → pick s = own h)
    {n : Nat} (hn : h.index < n) (hlive : h.index < H.depth) :
    a.search pick n h = .ok ((H.chain h).findSome? own) := by
  induction n generalizing h with
  | zero => omega
  | succ n ih =>
    have hsize : h.index < a.scopes.size := by
      rw [← ha.depth_eq] at hlive
      exact hlive
    have hs := Array.getElem?_eq_getElem hsize
    rw [Arena.search, hs, chain_eq hH hlive, List.findSome?_cons]
    dsimp only
    rw [hpick h _ hs, (ha.tells h _ hs).parent]
    cases own h with
    | some x => rfl
    | none =>
      cases hp : H.parent? h with
      | none => rfl
      | some p =>
        have hlt := parent?_lt hH hp
        exact ih (by omega) (by omega)

theorem Records.get (ha : Records H a) (hH : H.Legal) (hlive : h.index < H.depth) (name : String) :
    a.get h name = .ok ((H.chain h).findSome? (H.value? · name)) := by
  apply ha.search hH (fun h s hs => (ha.tells h s hs).values name) _ hlive
  rw [ha.depth_eq]
  exact hlive

theorem Records.getFunction (ha : Records H a) (hH : H.Legal) (hlive : h.index < H.depth)
    (name : String) :
    a.getFunction h name = .ok ((H.chain h).findSome? (H.function? · name)) := by
  apply ha.search hH (fun h s hs => (ha.tells h s hs).functions name) _ hlive
  rw [ha.depth_eq]
  exact hlive

theorem Records.get_define (ha : Records H a) (hH : H.Legal) {value : Word} {other : String}
    (hd : a.define h name value = .ok b) (hlive : h.index < H.depth) (hk : k.index < H.depth)
    (hne : b.get k other ≠ a.get k other) :
    other = name ∧ ∃ near far, H.chain k = near ++ h :: far ∧ ∀ i ∈ near, H.value? i name = none := by
  have hlegal : Legal (.define h name value :: H) := ⟨hlive, hH⟩
  have hafter : b.get k other = .ok ((H.chain k).findSome?
      (value? (.define h name value :: H) · other)) := (ha.define hd).get hlegal hk other
  rw [hafter, ha.get hH hk] at hne
  have hother : ∀ i, ¬(h = i ∧ name = other) →
      value? (.define h name value :: H) i other = H.value? i other :=
    fun i hi => value?_define.trans (if_neg hi)
  by_cases heq : other = name
  · subst heq
    rcases findSome?_given (fun i hi => hother i fun hgiven => hi hgiven.1.symm) (H.chain k)
      with hsame | hreached
    · exact absurd (congrArg Except.ok hsame) hne
    · exact ⟨rfl, hreached⟩
  · have hsame : (value? (.define h name value :: H) · other) = (H.value? · other) :=
      funext fun i => hother i fun hgiven => heq hgiven.2.symm
    rw [hsame] at hne
    exact absurd rfl hne

/-- What was done to the scopes tells what every lookup finds. Parents stand below their scopes, a new
scope has nothing of those that were at its index before, and a definition is seen from where no nearer
scope has the name. -/
theorem lookups_follow_history (H : History) (hH : H.Legal) :
    ∃ a, H.arena = .ok a ∧ a.depth = H.depth ∧ a.WellFormed ∧
      (∀ h : Handle, h.index < H.depth →
        (∃ s, a.scopes[h.index]? = some s ∧ s.parent = H.parent? h) ∧
        H.chain h = h :: (H.parent? h).elim [] H.chain ∧
        ∀ name, a.get h name = .ok ((H.chain h).findSome? (H.value? · name)) ∧
          a.getFunction h name = .ok ((H.chain h).findSome? (H.function? · name))) ∧
      (∀ p : Handle, p.index < H.depth →
        (a.push p).2 = ⟨H.depth⟩ ∧
        (a.push p).1.scopes[H.depth]? = some (.empty (some p)) ∧
        ∀ name, (a.push p).1.get ⟨H.depth⟩ name = a.get p name ∧
          (a.push p).1.getFunction ⟨H.depth⟩ name = a.getFunction p name) ∧
      ∀ (h : Handle) (name : String) (value : Word), h.index < H.depth →
        ∃ b, a.define h name value = .ok b ∧ ∀ (k : Handle) (other : String), k.index < H.depth →
          b.getFunction k other = a.getFunction k other ∧
          (b.get k other ≠ a.get k other →
            other = name ∧ ∃ near far, H.chain k = near ++ h :: far ∧
              ∀ i ∈ near, H.value? i name = none) := by
  obtain ⟨a, harena, ha⟩ := exists_records hH
  have hwell := ha.wellFormed hH
  have hdepth : a.scopes.size = depth H := ha.depth_eq
  refine ⟨a, harena, ha.depth_eq, hwell, ?_, ?_, ?_⟩
  · intro h hlive
    have hsize : h.index < a.scopes.size := by
      rw [hdepth]
      exact hlive
    have hs := Array.getElem?_eq_getElem hsize
    refine ⟨⟨_, hs, (ha.tells h _ hs).parent⟩, chain_eq hH hlive, fun name => ?_⟩
    exact ⟨ha.get hH hlive name, ha.getFunction hH hlive name⟩
  · intro p hlive
    have husable : a.Usable p := ⟨hwell.descends, by rw [ha.depth_eq]; exact hlive⟩
    have hnew : (a.push p).2 = ⟨H.depth⟩ := congrArg Handle.mk hdepth
    rw [← hdepth] at hnew ⊢
    refine ⟨hnew, by simp [Arena.push], fun name => ?_⟩
    exact ⟨husable.get_push name, husable.getFunction_push name⟩
  · intro h name value hlive
    have hstep : Step.Allowed H.depth (.define h name value) := hlive
    obtain ⟨b, happly, hb⟩ := ha.step hstep
    refine ⟨b, happly, fun k other hk => ⟨?_, ha.get_define hH happly hlive hk⟩⟩
    rw [ha.getFunction hH hk]
    exact hb.getFunction ⟨hlive, hH⟩ hk other

def reusedIndices : History :=
  [.define ⟨1⟩ "z" 7, .push ⟨1⟩, .push .global, .pop ⟨1⟩, .define ⟨2⟩ "y" 6, .push ⟨1⟩,
    .defineFunction ⟨1⟩ ⟨"f", [], .block []⟩, .define ⟨1⟩ "x" 5, .push .global,
    .define .global "x" 2, .define .global "x" 1]

theorem lookups_follow_history_reusedIndices :
    reusedIndices.Legal ∧ ∃ a, reusedIndices.arena = .ok a ∧
      a.get ⟨2⟩ "x" = .ok (some 2) ∧ a.get ⟨2⟩ "y" = .ok none ∧ a.get ⟨2⟩ "z" = .ok (some 7) ∧
      a.getFunction ⟨2⟩ "f" = .ok none := by
  have hlegal : reusedIndices.Legal := by
    simp [reusedIndices, Legal, Step.Allowed, depth, Handle.global]
  obtain ⟨a, harena, -, -, hlookups, -⟩ := lookups_follow_history reusedIndices hlegal
  have hlive : (⟨2⟩ : Handle).index < reusedIndices.depth := by decide
  obtain ⟨-, -, hnames⟩ := hlookups ⟨2⟩ hlive
  refine ⟨hlegal, a, harena, ?_, ?_, ?_, ?_⟩
  · rw [(hnames "x").1]
    rfl
  · rw [(hnames "y").1]
    rfl
  · rw [(hnames "z").1]
    rfl
  · rw [(hnames "f").2]
    rfl

end History

end Arena

end IntScript
