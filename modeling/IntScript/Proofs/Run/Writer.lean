import IntScript.Run.Sink
import Mathlib.Tactic.Cases

/-!
# Writing in parts

A writer is offered bytes and takes some of them, so that a text may take many offers, until there is no
room and it refuses. Whatever the parts are, it takes what a quota of the same room takes, and tells the
same reason. It refuses once at most, since nothing is offered after that.
-/

namespace IntScript

namespace Quota

theorem accept_empty (q : Quota) : q.accept .empty = q := by
  have hnone : ByteArray.empty.extract 0 q.room = .empty := by
    simp [← ByteArray.size_eq_zero_iff]
  rw [accept, hnone, ByteArray.append_empty, ByteArray.size_empty, Nat.sub_zero]

theorem accept_of_room_eq_zero {q : Quota} (h : q.room = 0) (bytes : ByteArray) :
    q.accept bytes = q := by
  rw [accept, h, ByteArray.extract_same, ByteArray.append_empty, Nat.zero_sub, ← h]

theorem accept_append (q : Quota) (a b : ByteArray) : q.accept (a ++ b) = (q.accept a).accept b := by
  simp only [accept, ByteArray.extract_append, ByteArray.size_append, ByteArray.append_assoc,
    Nat.zero_sub, Nat.sub_sub]

theorem accept_append_of_lt {q : Quota} {a : ByteArray} (h : q.room < a.size) (b : ByteArray) :
    q.accept (a ++ b) = q.accept a := by
  rw [accept_append]
  apply accept_of_room_eq_zero
  simp only [accept]
  omega

end Quota

/-- How a writer without room refuses: it fails, or it takes no byte. -/
inductive Refusal where
  | failure (message : String)
  | nothing

def Refusal.message : Refusal → String
  | failure message => message
  | nothing => "failed to write whole buffer"

/-- A writer: the bytes that it took, how many more it will take and how many at most of each offer, and
how often it has refused. An offer that is interrupted, which is made again, is outside the model. -/
structure Writer where
  accepted : ByteArray
  room : Nat
  refusal : Refusal
  refusals : Nat
  shares : Nat → Nat
  shares_pos : ∀ i, 0 < shares i

namespace Writer

def after (w : Writer) (bytes : ByteArray) (n : Nat) : Writer where
  accepted := w.accepted ++ bytes.extract 0 n
  room := w.room - n
  refusal := w.refusal
  refusals := w.refusals
  shares i := w.shares (i + 1)
  shares_pos i := w.shares_pos (i + 1)

def refusing (w : Writer) : Writer := { w with refusals := w.refusals + 1 }

def offer (w : Writer) (bytes : ByteArray) : Except String Nat × Writer :=
  if w.room = 0 then
    match w.refusal with
    | .failure message => (.error message, w.refusing)
    | .nothing => (.ok 0, w.refusing)
  else
    let n := min (w.shares 0) (min bytes.size w.room)
    (.ok n, w.after bytes n)

def writeAll (w : Writer) (bytes : ByteArray) : Except String Unit × Writer :=
  if _ : bytes.size = 0 then (.ok (), w)
  else
    match w.offer bytes with
    | (.error message, w') => (.error message, w')
    | (.ok 0, w') => (.error Refusal.nothing.message, w')
    | (.ok (n + 1), w') => w'.writeAll (bytes.extract (n + 1) bytes.size)
termination_by bytes.size
decreasing_by
  rw [ByteArray.size_extract]
  omega

def writePieces (w : Writer) : List ByteArray → Except String Unit × Writer
  | [] => (.ok (), w)
  | piece :: pieces =>
    match w.writeAll piece with
    | (.error message, w') => (.error message, w')
    | (.ok (), w') => w'.writePieces pieces

/-- A line is written in two pieces: what it shows, and the newline. -/
def pieces (s : String) : List ByteArray :=
  [(String.ofList s.toList.dropLast).toUTF8, (String.ofList s.toList.getLast?.toList).toUTF8]

instance : Sink Writer where
  write w s := w.writePieces (pieces s)

def quota (w : Writer) : Quota := ⟨w.accepted, w.room, w.refusal.message⟩

/-- What writing some bytes comes to: all are taken, or those for which there is room and one offer is
refused. -/
inductive Took (w : Writer) (bytes : ByteArray) : Except String Unit × Writer → Prop where
  | all {w' : Writer} (hroom : bytes.size ≤ w.room) (hquota : w'.quota = w.quota.accept bytes)
      (hrefusals : w'.refusals = w.refusals) : Took w bytes (.ok (), w')
  | part {w' : Writer} (hroom : w.room < bytes.size) (hquota : w'.quota = w.quota.accept bytes)
      (hrefusals : w'.refusals = w.refusals + 1) : Took w bytes (.error w.refusal.message, w')

section Steps

variable {w w' : Writer} {bytes a b : ByteArray} {answer : Except String Unit × Writer}

theorem Took.append (ha : Took w a (.ok (), w')) (hb : Took w' b answer) :
    Took w (a ++ b) answer := by
  cases ha with
  | all hroom hquota hrefusals =>
    have hleft : w'.room = w.room - a.size := congrArg Quota.room hquota
    have hmessage : w'.refusal.message = w.refusal.message := congrArg Quota.refusal hquota
    cases hb with
    | all hroom' hquota' hrefusals' =>
      apply Took.all
      · rw [ByteArray.size_append]
        omega
      · rw [hquota', hquota, Quota.accept_append]
      · rw [hrefusals', hrefusals]
    | part hroom' hquota' hrefusals' =>
      rw [hmessage]
      apply Took.part
      · rw [ByteArray.size_append]
        omega
      · rw [hquota', hquota, Quota.accept_append]
      · rw [hrefusals', hrefusals]

theorem Took.append_of_error {message : String} (ha : Took w a (.error message, w')) (b : ByteArray) :
    Took w (a ++ b) (.error message, w') := by
  cases ha with
  | part hroom hquota hrefusals =>
    apply Took.part
    · rw [ByteArray.size_append]
      omega
    · rw [hquota, Quota.accept_append_of_lt hroom]
    · exact hrefusals

theorem took_empty (w : Writer) : Took w .empty (.ok (), w) := by
  apply Took.all
  · simp
  · rw [Quota.accept_empty]
  · rfl

theorem took_after {n : Nat} (hsize : n ≤ bytes.size) (hroom : n ≤ w.room) :
    Took w (bytes.extract 0 n) (.ok (), w.after bytes n) := by
  have hpart : (bytes.extract 0 n).size = n := by
    rw [ByteArray.size_extract]
    omega
  have hall : (bytes.extract 0 n).extract 0 w.room = bytes.extract 0 n := by
    rw [ByteArray.extract_extract]
    congr 1
    omega
  apply Took.all
  · rw [hpart]
    exact hroom
  · simp only [quota, after, Quota.accept, hpart, hall]
  · rfl

theorem took_refusing (hroom : w.room = 0) (hbytes : bytes.size ≠ 0) :
    Took w bytes (.error w.refusal.message, w.refusing) := by
  apply Took.part
  · omega
  · rw [Quota.accept_of_room_eq_zero hroom]
    rfl
  · rfl

theorem offer_cases (w : Writer) (hbytes : bytes.size ≠ 0) :
    (w.room = 0 ∧ w.offer bytes = (.error w.refusal.message, w.refusing)) ∨
    (w.room = 0 ∧ w.refusal = .nothing ∧ w.offer bytes = (.ok 0, w.refusing)) ∨
    ∃ n, n + 1 ≤ bytes.size ∧ n + 1 ≤ w.room ∧
      w.offer bytes = (.ok (n + 1), w.after bytes (n + 1)) := by
  by_cases hroom : w.room = 0
  · cases hrefusal : w.refusal with
    | failure message => simp [offer, hroom, hrefusal, Refusal.message]
    | nothing => simp [offer, hroom, hrefusal]
  · have hshare := w.shares_pos 0
    obtain ⟨n, hn⟩ : ∃ n, min (w.shares 0) (min bytes.size w.room) = n + 1 :=
      Nat.exists_eq_succ_of_ne_zero (by omega)
    refine .inr (.inr ⟨n, by omega, by omega, ?_⟩)
    rw [offer, if_neg hroom, hn]

end Steps

theorem writeAll_took (w : Writer) (bytes : ByteArray) : Took w bytes (w.writeAll bytes) := by
  fun_induction writeAll w bytes with
  | case1 w bytes hempty =>
    rw [ByteArray.size_eq_zero_iff.1 hempty]
    exact w.took_empty
  | case2 w bytes hbytes message w' hoffer =>
    obtain ⟨hroom, hcase⟩ | ⟨-, -, hcase⟩ | ⟨n, -, -, hcase⟩ := w.offer_cases hbytes
    · cases hoffer.symm.trans hcase
      exact took_refusing hroom hbytes
    · cases hoffer.symm.trans hcase
    · cases hoffer.symm.trans hcase
  | case3 w bytes hbytes w' hoffer =>
    obtain ⟨-, hcase⟩ | ⟨hroom, hrefusal, hcase⟩ | ⟨n, -, -, hcase⟩ := w.offer_cases hbytes
    · cases hoffer.symm.trans hcase
    · cases hoffer.symm.trans hcase
      rw [← hrefusal]
      exact took_refusing hroom hbytes
    · cases hoffer.symm.trans hcase
  | case4 w bytes hbytes n w' hoffer ih =>
    obtain ⟨-, hcase⟩ | ⟨-, -, hcase⟩ | ⟨n', hsize, hroom, hcase⟩ := w.offer_cases hbytes
    · cases hoffer.symm.trans hcase
    · cases hoffer.symm.trans hcase
    · cases hoffer.symm.trans hcase
      have hparts := (took_after hsize hroom).append ih
      rw [← ByteArray.extract_eq_extract_append_extract (n + 1) (by omega) hsize,
        ByteArray.extract_zero_size] at hparts
      exact hparts

theorem writePieces_took (w : Writer) (pieces : List ByteArray) :
    Took w (pieces.foldr (· ++ ·) .empty) (w.writePieces pieces) := by
  induction pieces generalizing w with
  | nil => exact w.took_empty
  | cons piece pieces ih =>
    have hpiece := w.writeAll_took piece
    rw [writePieces, List.foldr_cons]
    cases hall : w.writeAll piece with
    | mk r w' =>
      rw [hall] at hpiece
      cases r with
      | ok u => exact hpiece.append (ih w')
      | error message => exact hpiece.append_of_error _

theorem pieces_join (s : String) : (pieces s).foldr (· ++ ·) .empty = s.toUTF8 := by
  have hline : s.toList.dropLast ++ s.toList.getLast?.toList = s.toList := by
    cases hlast : s.toList.getLast? with
    | none => simp [List.getLast?_eq_none_iff.1 hlast]
    | some c =>
      obtain ⟨front, hfront⟩ := List.getLast?_eq_some_iff.1 hlast
      simp [hfront]
  simp only [pieces, List.foldr_cons, List.foldr_nil, ByteArray.append_empty,
    String.toUTF8_eq_toByteArray, ← String.toByteArray_append, ← String.ofList_append, hline,
    String.ofList_toList]

theorem write_took (w : Writer) (s : String) : Took w s.toUTF8 (Sink.write w s) := by
  have hparts := w.writePieces_took (pieces s)
  rw [pieces_join] at hparts
  exact hparts

end Writer

end IntScript
