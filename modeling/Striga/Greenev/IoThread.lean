import Striga.Greenev.CmdQueue
import Striga.Greenev.IoBuffer

/-! The IO thread of `greenev/iothread.c`: two singly linked lists of socket
objects on the heap, an event loop that watches them, and the handlers of the
thread's commands and of its watchers' events. -/

set_option autoImplicit false

namespace Striga.Greenev

/-- The address of a socket object; a pointer to one is an address or null. -/
abbrev Addr := Nat

inductive SocketCallback where
  | onIoThreadAccept
  | onIoThreadReadwrite
  deriving DecidableEq, Repr

/-- `struct io_thread_listening_socket` and `struct io_thread_established_socket`,
which have the same fields. -/
structure SockObj where
  next : Option Addr
  watcher : EvIo SocketCallback
  domain : Int
  type : Int
  protocol : Int
  address : List UInt8
  deriving DecidableEq, Repr

/-- What goes wrong in C: a pointer to no live object is followed, or an assert
fails. A loop of the source that is cut off by its fuel is exhausted. -/
inductive Fault where
  | dereference
  | assertion
  | exhausted
  deriving DecidableEq, Repr

/-- The socket objects, the loop that watches them, and the record of closed
descriptors and freed objects. -/
structure SocketHeap where
  loop : EvLoop
  heap : Addr → Option SockObj
  closed : List Int
  freed : List Addr

namespace SocketHeap

def load (this : SocketHeap) (addr : Addr) : Except Fault SockObj :=
  match this.heap addr with
  | none => throw .dereference
  | some sockobj => pure sockobj

def store (this : SocketHeap) (addr : Addr) (sockobj : SockObj) : SocketHeap :=
  { this with heap := Function.update this.heap addr (some sockobj) }

def free (this : SocketHeap) (addr : Addr) : SocketHeap :=
  { this with heap := Function.update this.heap addr none, freed := this.freed ++ [addr] }

def close (this : SocketHeap) (fd : Int) : SocketHeap :=
  { this with closed := this.closed ++ [fd] }

/-- `ev_io_start` on the watcher of an object with the given contents. -/
def ioStart (this : SocketHeap) (addr : Addr) (sockobj : SockObj) : SocketHeap :=
  let (loop, watcher) := sockobj.watcher.start this.loop
  { this.store addr { sockobj with watcher := watcher } with loop := loop }

/-- `ev_io_stop` on the watcher of an object with the given contents. -/
def ioStop (this : SocketHeap) (addr : Addr) (sockobj : SockObj) : SocketHeap :=
  let (loop, watcher) := sockobj.watcher.stop this.loop
  { this.store addr { sockobj with watcher := watcher } with loop := loop }

end SocketHeap

/-- What a read of the `next` of a freed object finds: the pointer that was
stored there, null, or anything else. -/
inductive FreedRead where
  | kept
  | null
  | wild
  deriving DecidableEq, Repr

def FreedRead.value (read : FreedRead) (stored : Option Addr) : Except Fault (Option Addr) :=
  match read with
  | .kept => pure stored
  | .null => pure none
  | .wild => throw .dereference

structure IoThread extends SocketHeap where
  listening : Option Addr
  established : Option Addr
  cmdQ : WatcherCmdQ (Option Addr)
  tmpIoBuf : IoBuffer

def iotCmdIoThreadDie : Int := 1

def iotCmdIoThreadListen : Int := 2

def iotCmdIoThreadEstablish : Int := 3

/-- One of the two loops of `IO_THREAD_DIE`, over the list with the given head.
It reads `sockobj->next` once more after `free(sockobj)`. -/
def teardown (reads : Addr → FreedRead) :
    Nat → Option Addr → Option Addr → SocketHeap → Except Fault (Option Addr × SocketHeap)
  | _, list, none, this => pure (list, this)
  | 0, _, some _, _ => throw .exhausted
  | fuel + 1, _, some addr, this => do
      let sockobj ← this.load addr
      let this := (this.close sockobj.watcher.fd).ioStop addr sockobj
      let list := sockobj.next
      let next ← (reads addr).value sockobj.next
      teardown reads fuel list next (this.free addr)

namespace IoThread

/-- `io_thread_ctor`; the queue's and the buffer's blocks are uninitialised. -/
def ctor (layout : IoBufferLayout) (cells : Nat → Cmd (Option Addr)) (block : Nat)
    (memory : Nat → Nat) : IoThread where
  loop := ⟨0⟩
  heap _ := none
  closed := []
  freed := []
  listening := none
  established := none
  cmdQ := .new 256 cells
  tmpIoBuf := .new layout block (1024 * 8) memory

/-- The critical section of the put in `io_thread_die`. -/
def die (this : IoThread) : IoThread :=
  { this with cmdQ := (this.cmdQ.enqueue ⟨iotCmdIoThreadDie, none⟩).2 }

/-- The object that `io_thread_listen` makes for a socket it has prepared. -/
def listeningSocket (fd domain type protocol : Int) (address : List UInt8) : SockObj where
  next := none
  watcher := .init .onIoThreadAccept fd ⟨true, false, false⟩
  domain := domain
  type := type
  protocol := protocol
  address := address

/-- The object that `io_thread_connect` makes for a socket it has connected. -/
def connectedSocket (fd domain type protocol : Int) (address : List UInt8) : SockObj where
  next := none
  watcher := .init .onIoThreadReadwrite fd ⟨false, false, false⟩
  domain := domain
  type := type
  protocol := protocol
  address := address

/-- A new object put with its command, up to the end of the critical section.
The result of the put is ignored. -/
def handOver (this : IoThread) (id : Int) (addr : Addr) (sockobj : SockObj) : IoThread :=
  { this with
    toSocketHeap := this.store addr sockobj
    cmdQ := (this.cmdQ.enqueue ⟨id, some addr⟩).2 }

/-- `_io_thread_start` up to `ev_run`. -/
def start (this : IoThread) : IoThread :=
  let (loop, cmdQ) := this.cmdQ.start this.loop
  { this with loop := loop.ref, cmdQ := cmdQ }

/-- `watcher_cmd_q_stop` in `_io_thread_cleanup`. -/
def stop (this : IoThread) : IoThread :=
  let (loop, cmdQ) := this.cmdQ.stop this.loop
  { this with loop := loop, cmdQ := cmdQ }

def onIotCmd (reads : Addr → FreedRead) (fuel : Nat) (cmd : Cmd (Option Addr))
    (this : IoThread) : Except Fault IoThread :=
  if cmd.id = iotCmdIoThreadDie then do
    let (listening, sockets) ← teardown reads fuel this.listening this.listening this.toSocketHeap
    let (established, sockets) ← teardown reads fuel this.established this.established sockets
    pure { this with
      toSocketHeap := { sockets with loop := sockets.loop.unref }
      listening := listening
      established := established }
  else if cmd.id = iotCmdIoThreadListen then
    match cmd.arg with
    | none => throw .dereference
    | some addr => do
        let sockobj ← this.load addr
        let sockobj := { sockobj with next := this.listening }
        pure { this with
          toSocketHeap := this.ioStart addr sockobj
          listening := some addr }
  else if cmd.id = iotCmdIoThreadEstablish then
    match cmd.arg with
    | none => throw .dereference
    | some addr => do
        let sockobj ← this.load addr
        let sockobj := { sockobj with
          next := this.established
          watcher := sockobj.watcher.set sockobj.watcher.fd ⟨true, false, false⟩ }
        pure { this with
          toSocketHeap := this.ioStart addr sockobj
          established := some addr }
  else
    pure this

/-- What `prev` points to in `io_thread_sockobj_close`: the head of the list or
the `next` of an object. -/
inductive Place where
  | head
  | next (addr : Addr)

def assign (this : IoThread) (value : Option Addr) : Place → Except Fault IoThread
  | .head => pure { this with established := value }
  | .next addr => do
      let sockobj ← this.load addr
      pure { this with toSocketHeap := this.store addr { sockobj with next := value } }

/-- The loop of `io_thread_sockobj_close` and the assert behind it. -/
def unlink (sockobj : Addr) : Nat → Place → Option Addr → IoThread → Except Fault IoThread
  | _, _, none, _ => throw .assertion
  | 0, _, some _, _ => throw .exhausted
  | fuel + 1, prev, some i, this => do
      let node ← this.load i
      if i = sockobj then
        let this ← this.assign node.next prev
        pure { this with
          toSocketHeap := (this.store sockobj { node with next := none }).free sockobj }
      else
        unlink sockobj fuel (.next i) node.next this

def sockobjClose (fuel : Nat) (sockobj : Addr) (this : IoThread) : Except Fault IoThread := do
  let node ← this.load sockobj
  let this := { this with
    toSocketHeap := (this.close node.watcher.fd).ioStop sockobj node }
  unlink sockobj fuel .head this.established this

/-- `io_buffer_put` on `tmp_io_buf`. -/
def putBack (this : IoThread) (iovecs : List Iovec) : Except Fault IoThread :=
  match this.tmpIoBuf.put iovecs with
  | none => throw .assertion
  | some buffer => pure { this with tmpIoBuf := buffer }

def wantedIovcnt : Nat := 4

/-- `_on_io_thread_readwrite` for an event in which `readv` returns `size`; an
error and the end of the file are handled alike. -/
def onIoThreadReadwrite (layout : IoBufferLayout) (fuel : Nat) (sockobj : Addr)
    (revents : EvEvents) (size : Int) (this : IoThread) : Except Fault IoThread :=
  if revents.read then do
    let (iovecs, buffer) := this.tmpIoBuf.get layout wantedIovcnt
    let this := { this with tmpIoBuf := buffer }
    if iovecs.length = 0 then
      pure this
    else if size ≤ 0 then
      let this ← this.sockobjClose fuel sockobj
      this.putBack iovecs
    else
      let usedIovcnt := 1 + (size.toNat - 1) / layout.slotSize
      if usedIovcnt = wantedIovcnt then
        pure this
      else if usedIovcnt < iovecs.length then
        this.putBack (iovecs.drop usedIovcnt)
      else
        pure this
  else
    pure this

/-- What `accept` returns: a descriptor, negative on failure, and the address
of the client. -/
structure Accepted where
  clientSocket : Int
  clientAddr : List UInt8

/-- `_on_io_thread_accept`; `app` tells whether the application exists, and
`fresh` is the address that `malloc` returns. -/
def onIoThreadAccept (app : Bool) (sockobj : Addr) (revents : EvEvents) (accepted : Accepted)
    (fresh : Addr) (this : IoThread) : Except Fault IoThread := do
  let listeningSockobj ← this.load sockobj
  if revents.error then
    pure this
  else if revents.read then
    if accepted.clientSocket < 0 then
      pure this
    else if app = false then
      pure { this with toSocketHeap := this.close accepted.clientSocket }
    else
      let watcher := EvIo.init .onIoThreadReadwrite accepted.clientSocket ⟨false, false, false⟩
      let newSockobj : SockObj :=
        { next := this.established
          watcher := watcher.set accepted.clientSocket ⟨true, false, false⟩
          domain := listeningSockobj.domain
          type := listeningSockobj.type
          protocol := listeningSockobj.protocol
          address := accepted.clientAddr }
      pure { this with
        toSocketHeap := this.ioStart fresh newSockobj
        established := some fresh }
  else
    pure this

end IoThread

end Striga.Greenev
