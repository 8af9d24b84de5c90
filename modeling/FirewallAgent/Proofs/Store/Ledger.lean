import FirewallAgent.Proofs.Lock.Segment
import FirewallAgent.Proofs.Store.Work
import FirewallAgent.Store.Sharing

/-! Handles that share one store, against a ledger of one shared dictionary and a snapshot for each
handle. The ledger takes every operation in one step, at the moment at which its lock is given back;
what others see before that moment is the file as it was when the lock was taken. -/
namespace FirewallAgent.Store

def Operation.written? (found : Dictionary) : Operation → Option Dictionary
  | openStore => none
  | reload => none
  | set key value => some (found.insert key value)
  | save code c => some (Credential.record found code c)
  | clear => some .empty

def Query.answer (memory : Dictionary) : Query → Reply
  | get key => .value (memory.get? key)
  | keys => .keys memory.keys
  | load code => .credential (Credential.find? memory code)

def Operation.recorded (key : String) (found : Option String) : Operation → Option String
  | openStore => found
  | reload => found
  | set k value => if k = key then some value else found
  | save code c =>
    if Credential.secretKey code = key then some c.appSecret
    else if Credential.idKey code = key then some c.appId
    else found
  | clear => none

theorem writtenGet {op : Operation} {found memory : Dictionary} (h : op.written? found = some memory)
    (key : String) : memory.get? key = op.recorded key (found.get? key) := by
  cases op with
  | openStore => contradiction
  | reload => contradiction
  | set k value =>
    cases Option.some.inj h
    exact Dictionary.getInsert found k value key
  | save code c =>
    cases Option.some.inj h
    simp only [Credential.record, Dictionary.getInsert, Operation.recorded]
  | clear =>
    cases Option.some.inj h
    rfl

theorem unwrittenGet {op : Operation} {found : Dictionary} (h : op.written? found = none)
    (key : String) (value : Option String) : op.recorded key value = value := by
  cases op <;> first | rfl | contradiction

theorem replyAnswer (q : Query) (h : Handle) : q.reply h = q.answer h.memory := by
  cases q <;> rfl

theorem readingJob {op : Operation} {found : Dictionary} (h : op.written? found = none) :
    op.job = .reload := by
  cases op <;> first | rfl | contradiction

theorem writingJob {op : Operation} {found memory : Dictionary}
    (h : op.written? found = some memory) : ∃ c, op.job = .update c ∧ c.apply found = memory := by
  cases op with
  | openStore => contradiction
  | reload => contradiction
  | set key value =>
    cases Option.some.inj h
    exact ⟨_, rfl, rfl⟩
  | save code c =>
    cases Option.some.inj h
    exact ⟨_, rfl, rfl⟩
  | clear =>
    cases Option.some.inj h
    exact ⟨_, rfl, rfl⟩

theorem writtenAlike (op : Operation) (a b : Dictionary) :
    (op.written? a).isSome = (op.written? b).isSome := by
  cases op <;> rfl

namespace Sharing.Event

def isFault : Event → Bool
  | ended _ _ (.error e) => e.isFault
  | _ => false

def isWrite : Event → Bool
  | ended _ op (.ok ()) => (op.written? .empty).isSome
  | _ => false

def recorded (key : String) (found : Option String) : Event → Option String
  | ended _ op (.ok ()) => op.recorded key found
  | _ => found

end Sharing.Event

structure Ledger where
  shared : Dictionary
  snapshots : Nat → Dictionary

namespace Ledger
open Sharing (Event)

def start (found : Dictionary) : Ledger := ⟨found, fun _ => .empty⟩

def note (l : Ledger) (n : Nat) (memory : Dictionary) : Ledger :=
  { l with snapshots := fun m => if m = n then memory else l.snapshots m }

theorem noteOther (l : Ledger) {n m : Nat} (memory : Dictionary) (h : m ≠ n) :
    (l.note n memory).snapshots m = l.snapshots m := if_neg h

theorem noteSelf (l : Ledger) (n : Nat) (memory : Dictionary) :
    (l.note n memory).snapshots n = memory := if_pos rfl

def step (l : Ledger) : Event → Option Ledger
  | .ended n op (.ok ()) =>
    match op.written? l.shared with
    | some memory => some { l.note n memory with shared := withoutComments memory }
    | none => some (l.note n l.shared)
  | .ended _ _ (.error _) => none
  | .answered n q r => if r = q.answer (l.snapshots n) then some l else none

def run (l : Ledger) : List Event → Option Ledger
  | [] => some l
  | e :: es => (l.step e).bind fun l => l.run es

theorem runAppend {l m : Ledger} {before : List Event} (h : l.run before = some m)
    (es : List Event) : l.run (before ++ es) = m.run es := by
  induction before generalizing l with
  | nil =>
    cases Option.some.inj h
    rfl
  | cons e rest ih =>
    obtain ⟨next, first, tail⟩ := Option.bind_eq_some_iff.mp h
    simp only [List.cons_append, run, first, Option.bind_some]
    exact ih tail

theorem runOne (l : Ledger) (e : Event) : l.run [e] = l.step e := by
  cases found : l.step e <;> simp [run, found]

theorem stepRecorded {l m : Ledger} {e : Event} {key : String} (plain : isComment key = false)
    (next : l.step e = some m) : m.shared.get? key = e.recorded key (l.shared.get? key) := by
  cases e with
  | answered n q r =>
    rw [step] at next
    split at next
    · cases Option.some.inj next
      rfl
    · contradiction
  | ended n op r =>
    cases r with
    | error e => contradiction
    | ok u =>
      simp only [step] at next
      cases wrote : op.written? l.shared with
      | none =>
        simp only [wrote] at next
        cases Option.some.inj next
        exact (unwrittenGet wrote key _).symm
      | some memory =>
        simp only [wrote] at next
        cases Option.some.inj next
        have kept := getWithoutComments memory key
        rw [plain, if_neg (by decide)] at kept
        exact kept.trans (writtenGet wrote key)

theorem runRecorded {l m : Ledger} {es : List Event} {key : String} (plain : isComment key = false)
    (ran : l.run es = some m) : m.shared.get? key = es.foldl (Event.recorded key) (l.shared.get? key) := by
  induction es generalizing l with
  | nil =>
    cases Option.some.inj ran
    rfl
  | cons e rest ih =>
    obtain ⟨next, first, tail⟩ := Option.bind_eq_some_iff.mp ran
    rw [List.foldl_cons, ← stepRecorded plain first]
    exact ih tail

end Ledger
end FirewallAgent.Store
