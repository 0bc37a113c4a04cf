/-!
What a program writes its lines to. A sink takes a text whole, or takes a part of it and refuses the rest.
-/

namespace IntScript

/-- Takes texts, and may refuse one with an explanation. -/
class Sink (ω : Type) where
  write : ω → String → Except String Unit × ω

structure Transcript where
  text : String

def Transcript.empty : Transcript := ⟨""⟩

instance : Sink Transcript where
  write t s := (.ok (), ⟨t.text ++ s⟩)

/-- Bytes that were accepted, how many more will be, and what is said when one is refused. -/
structure Quota where
  accepted : ByteArray
  room : Nat
  refusal : String

def Quota.ofRoom (room : Nat) (refusal : String) : Quota := ⟨.empty, room, refusal⟩

def Quota.accept (q : Quota) (bytes : ByteArray) : Quota :=
  ⟨q.accepted ++ bytes.extract 0 q.room, q.room - bytes.size, q.refusal⟩

instance : Sink Quota where
  write q s :=
    let bytes := s.toUTF8
    (if bytes.size ≤ q.room then .ok () else .error q.refusal, q.accept bytes)

end IntScript
