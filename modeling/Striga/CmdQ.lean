import Striga.Libev
import Striga.Lib.Ring

/-! `cmd_q` of `pyglev/core/cmdq.c` and `singlev/src/cmdq.c`. The two texts
differ in the type of what a command carries, `PyObject * subject` in the one
and `void * data` in the other, and that is a parameter here. -/

set_option autoImplicit false

namespace Striga

open Lib

structure SubjectCmd (Subject : Type) where
  id : Int
  subject : Subject
  deriving DecidableEq, Repr

/-- `struct cmd_q`; the mutex is the atomicity of the critical sections. -/
structure CmdQ (Subject : Type) where
  size : UInt32
  head : UInt32
  tail : UInt32
  watcher : EvAsync
  queue : Nat → SubjectCmd Subject

namespace CmdQ

variable {Subject : Type}

def new (size : UInt32) (block : Nat → SubjectCmd Subject) : CmdQ Subject where
  size := size
  head := 0
  tail := 0
  watcher := EvAsync.init
  queue := block

def start (loop : EvLoop) (this : CmdQ Subject) : EvLoop × CmdQ Subject :=
  let (loop, watcher) := this.watcher.start loop
  (loop.unref, { this with watcher := watcher })

def stop (loop : EvLoop) (this : CmdQ Subject) : EvLoop × CmdQ Subject :=
  let loop := loop.ref
  let (loop, watcher) := this.watcher.stop loop
  (loop, { this with watcher := watcher })

/-- The assert of `cmd_q_delete`, which does not look at the commands left. -/
def deletable (this : CmdQ Subject) : Bool := !this.watcher.active

/-- The critical section of `cmd_q_put`. -/
def enqueue (this : CmdQ Subject) (newCmd : SubjectCmd Subject) : Bool × CmdQ Subject :=
  let pos := this.head
  let head := this.head + 1
  let head := if head = this.size then 0 else head
  if head = this.tail then
    (false, { this with head := pos })
  else
    (true, { this with head := head, queue := Function.update this.queue pos.toNat newCmd })

def send (this : CmdQ Subject) : CmdQ Subject := { this with watcher := this.watcher.send }

def put (this : CmdQ Subject) (newCmd : SubjectCmd Subject) : Bool × CmdQ Subject :=
  if this.watcher.active then
    match this.enqueue newCmd with
    | (true, this) => (true, this.send)
    | (false, this) => (false, this)
  else
    (false, this)

/-- The result is the C `int` returned, with what is stored in `out_cmd`. -/
def get (this : CmdQ Subject) : Int32 × Option (SubjectCmd Subject) × CmdQ Subject :=
  if this.head = this.tail then
    (-1, none, this)
  else
    let outCmd := this.queue this.tail.toNat
    let tail := this.tail + 1
    let tail := if tail = this.size then 0 else tail
    let size :=
      if tail > this.head then
        this.head + (this.size - tail)
      else
        this.head - tail
    (size.toInt32, some outCmd, { this with tail := tail })

def WellFormed (this : CmdQ Subject) : Prop :=
  Ring.Machine.Bounded this.size this.head this.tail

def pending (this : CmdQ Subject) : List (SubjectCmd Subject) :=
  Ring.Machine.contents this.size this.head this.tail this.queue

/-- The queue stands for an abstract one of one command less than its size. -/
def Represents (this : CmdQ Subject) (fifo : BoundedFifo (SubjectCmd Subject)) : Prop :=
  Ring.Machine.Represents this.size this.head this.tail this.queue fifo

theorem Represents.items_eq {this : CmdQ Subject} {fifo : BoundedFifo (SubjectCmd Subject)}
    (stands : this.Represents fifo) : fifo.items = this.pending := stands.items

theorem Represents.enqueue {this : CmdQ Subject} {fifo : BoundedFifo (SubjectCmd Subject)}
    (stands : this.Represents fifo) (cmd : SubjectCmd Subject) :
    (this.enqueue cmd).1 = (fifo.offer cmd).1 ∧
      (this.enqueue cmd).2.Represents (fifo.offer cmd).2 := by
  by_cases full : Ring.Machine.next this.size this.head = this.tail
  · have refused : this.enqueue cmd = (false, this) := if_pos full
    obtain ⟨result, same⟩ := stands.offer_full cmd full
    rw [refused, same]
    exact ⟨result.symm, stands⟩
  · have accepted : this.enqueue cmd = (true, { this with
        head := Ring.Machine.next this.size this.head
        queue := Function.update this.queue this.head.toNat cmd }) := if_neg full
    obtain ⟨result, appended⟩ := stands.offer cmd full
    rw [accepted]
    exact ⟨result.symm, appended⟩

theorem Represents.get {this : CmdQ Subject} {fifo : BoundedFifo (SubjectCmd Subject)}
    (stands : this.Represents fifo) :
    this.get.2.1 = fifo.poll.1 ∧ this.get.2.2.Represents fifo.poll.2 := by
  by_cases idle : this.head = this.tail
  · have nothing : this.get = (-1, none, this) := if_pos idle
    rw [nothing, stands.poll_empty idle]
    exact ⟨rfl, stands⟩
  · obtain ⟨result, rest⟩ := stands.poll idle
    have removed : this.get = ((Ring.Machine.count this.size this.head
        (Ring.Machine.next this.size this.tail)).toInt32,
        some (this.queue this.tail.toNat),
        { this with tail := Ring.Machine.next this.size this.tail }) := if_neg idle
    rw [removed]
    exact ⟨result.symm, rest⟩

end CmdQ

end Striga
