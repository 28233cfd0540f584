import Dualbank.Device.Record
import Dualbank.Proofs.Device.Printed
import Dualbank.Proofs.Plan.Gives
import Mathlib.Logic.Function.Basic

namespace Dualbank

open Plan

structure Cell where
  value : String
  boot : Nat
  deriving DecidableEq, Repr

inductive Node
  | absent
  | file
  | directory
  deriving DecidableEq, Repr

structure Board where
  vars : String → Option Cell
  nodes : String → Node
  boot : Nat
  idFile : String

namespace Board

def bootId (b : Board) : String := Text.trim b.idFile

def write (b : Board) (name value : String) : Board :=
  { b with vars := Function.update b.vars name (some ⟨value, b.boot⟩) }

def put (b : Board) (path : String) (n : Node) : Board :=
  { b with nodes := Function.update b.nodes path n }

def reboot (b : Board) (idFile : String) : Board := { b with boot := b.boot + 1, idFile }

@[simp] theorem write_vars_self (b : Board) (name value : String) :
    (b.write name value).vars name = some ⟨value, b.boot⟩ := Function.update_self ..

theorem write_vars_of_ne (b : Board) {name name' : String} (h : name' ≠ name) (value : String) :
    (b.write name value).vars name' = b.vars name' := Function.update_of_ne h ..

def value? (b : Board) (name : String) : Option String :=
  (b.vars name).map fun c => BootEnv.shown c.value

end Board

def Succeeds : Except OsError Finished → Prop
  | .ok f => f.status.isSuccess
  | .error _ => False

def Prints (name : String) (c? : Option Cell) (x : Except OsError Finished) : Prop :=
  ∃ f, x = .ok f ∧
    match c? with
    | some c => f.status.isSuccess ∧ f.out = BootEnv.printed name c.value
    | none => ¬f.status.isSuccess ∧ Text.contains "not defined" f.err

namespace SysCall

/-- What is answered where nothing fails. Programs other than the two tools say what they like, and
so do the files other than that of the boot id. -/
def Works (r : Record) : Rules Answer Board
  | run tool [name, value], b, x, b' =>
    if tool = r.env.setTool then Succeeds x ∧ b' = b.write name value else b' = b
  | run tool [name], b, x, b' => (tool = r.env.printTool → Prints name (b.vars name) x) ∧ b' = b
  | readText path, b, x, b' => (path = r.bootIdPath → x = .ok b.idFile) ∧ b' = b
  | isPresent path, b, x, b' => x = .ok (b.nodes path != .absent) ∧ b' = b
  | createNew path, b, x, b' =>
    match b.nodes path with
    | .absent => x = .ok () ∧ b' = b.put path .file
    | _ => x = .error (.number Errno.alreadyPresent) ∧ b' = b
  | remove path, b, x, b' =>
    match b.nodes path with
    | .absent => x = .error (.number Errno.noEntry) ∧ b' = b
    | .file => x = .ok () ∧ b' = b.put path .absent
    | .directory => (∃ e, x = .error e ∧ ¬e.isNotFound) ∧ b' = b
  | _, b, _, b' => b' = b

/-- What a failure looks like. A tool that fails may say anything, also that a variable which is
set is not defined. -/
def Fails : (q : SysCall) → q.Answer → Prop
  | run _ _, x => ¬Succeeds x
  | readText _, x => ∃ e, x = .error e
  | isPresent _, x => ∃ e, x = .error e
  | createNew _, x => ∃ e, x = .error e
  | remove _, x => ∃ e, x = .error e ∧ ¬e.isNotFound
  | _, _ => True

/-- The rules of a world in which `failing` tells what may fail, and what is then left of it. -/
def rules (r : Record) (failing : SysCall → Board → Board → Prop) : Rules Answer Board :=
  fun q b x b' => Works r q b x b' ∨ Fails q x ∧ failing q b b'

end SysCall

/-- Calls of one sort may fail, and what fails changes nothing. -/
def Inert (sort : SysCall → Prop) (q : SysCall) (b b' : Board) : Prop := sort q ∧ b' = b

def Never : SysCall → Board → Board → Prop := Inert fun _ => False

theorem SysCall.rules_of_never {r : Record} {failing : SysCall → Board → Board → Prop}
    (q : SysCall) (b : Board) (x : q.Answer) (b' : Board) (h : rules r Never q b x b') :
    rules r failing q b x b' :=
  h.imp_right fun hf => hf.2.1.elim

namespace SysCall

def reply (r : Record) : (q : SysCall) → StateM Board q.Answer
  | run tool [name, value] => fun b =>
    (.ok ⟨.exited 0, "", ""⟩, if tool = r.env.setTool then b.write name value else b)
  | run _ [name] => fun b =>
    match b.vars name with
    | some c => (.ok ⟨.exited 0, BootEnv.printed name c.value, ""⟩, b)
    | none => (.ok ⟨.exited 1, "", BootEnv.undefinedReport name⟩, b)
  | run _ _ => fun b => (.ok ⟨.exited 0, "", ""⟩, b)
  | runAttached _ _ => fun b => (.ok (.exited 1), b)
  | readText _ => fun b => (.ok b.idFile, b)
  | isPresent path => fun b => (.ok (b.nodes path != .absent), b)
  | createNew path => fun b =>
    match b.nodes path with
    | .absent => (.ok (), b.put path .file)
    | _ => (.error (.number Errno.alreadyPresent), b)
  | remove path => fun b =>
    match b.nodes path with
    | .absent => (.error (.number Errno.noEntry), b)
    | .file => (.ok (), b.put path .absent)
    | .directory => (.error (.number Errno.isDirectory), b)
  | inspect _ => fun b => (.ok .other, b)
  | workingDirectory => fun b => (.ok "/", b)
  | openConsole _ => fun b => (.ok (), b)
  | pause _ | print _ _ | log _ _ | copyLog => fun b => ((), b)

def replyBut (r : Record) (broken : SysCall → Bool) (q : SysCall) : StateM Board q.Answer :=
  if broken q then fun b =>
    match q with
    | run _ _ | runAttached _ _ | readText _ | isPresent _ | createNew _ | remove _ | inspect _
    | workingDirectory | openConsole _ => (.error (.number Errno.inputOutput), b)
    | pause _ | print _ _ | log _ _ | copyLog => ((), b)
  else reply r q

theorem works_reply (r : Record) (q : SysCall) (b : Board) :
    Works r q b (reply r q b).1 (reply r q b).2 := by
  cases q with
  | run tool args =>
      match args with
      | [] => rfl
      | [name] =>
          simp only [Works, reply]
          cases b.vars name with
          | some c => exact ⟨fun _ => ⟨_, rfl, rfl, rfl⟩, rfl⟩
          | none =>
              have h := BootEnv.contains_undefinedReport name
              exact ⟨fun _ => ⟨_, rfl, Bool.false_ne_true, h⟩, rfl⟩
      | [name, value] =>
          simp only [Works, reply]
          by_cases h : tool = r.env.setTool
          · rw [if_pos h, if_pos h]
            exact ⟨rfl, rfl⟩
          · rw [if_neg h, if_neg h]
      | _ :: _ :: _ :: _ => rfl
  | readText path => exact ⟨fun _ => rfl, rfl⟩
  | isPresent path => exact ⟨rfl, rfl⟩
  | createNew path =>
      simp only [Works, reply]
      cases b.nodes path with
      | absent => exact ⟨rfl, rfl⟩
      | file => exact ⟨rfl, rfl⟩
      | directory => exact ⟨rfl, rfl⟩
  | remove path =>
      simp only [Works, reply]
      cases b.nodes path with
      | absent => exact ⟨rfl, rfl⟩
      | file => exact ⟨rfl, rfl⟩
      | directory => exact ⟨⟨_, rfl, by decide⟩, rfl⟩
  | _ => rfl

theorem exists_rules (r : Record) (failing : SysCall → Board → Board → Prop) (q : SysCall)
    (b : Board) : ∃ x b', rules r failing q b x b' :=
  ⟨_, _, .inl (works_reply r q b)⟩

theorem rules_replyBut {r : Record} {failing : SysCall → Board → Board → Prop}
    {broken : SysCall → Bool} (h : ∀ q b, broken q → failing q b b) (q : SysCall) (b : Board) :
    rules r failing q b (replyBut r broken q b).1 (replyBut r broken q b).2 := by
  rw [replyBut]
  by_cases hq : broken q
  · rw [if_pos hq]
    refine .inr ?_
    cases q with
    | run tool args => exact ⟨not_false, h _ b hq⟩
    | remove path => exact ⟨⟨_, rfl, by decide⟩, h _ b hq⟩
    | readText path => exact ⟨⟨_, rfl⟩, h _ b hq⟩
    | isPresent path => exact ⟨⟨_, rfl⟩, h _ b hq⟩
    | createNew path => exact ⟨⟨_, rfl⟩, h _ b hq⟩
    | _ => exact ⟨trivial, h _ b hq⟩
  · rw [if_neg hq]
    exact .inl (works_reply r q b)

end SysCall

end Dualbank
