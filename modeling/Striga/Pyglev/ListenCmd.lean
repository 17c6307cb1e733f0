import Striga.Pyglev.EventLoop
import Mathlib.Data.Finset.Basic
import Mathlib.Data.Finset.Image

/-! `_listen_cmd_xschedule_01` and `_listen_cmd_close` of `pyglev/core/lstncmd.c`. -/

set_option autoImplicit false

namespace Striga.Pyglev

open Lib

inductive NameInfo where
  | found (host port : String)
  | failed (rc : Int) (gaiStrerror : String) (reported : EventLoop.Reported)

/-- The calls on a listening socket once it exists. -/
inductive Stage where
  | setsockopt
  | bind
  | listen
  deriving DecidableEq, Repr

def Stage.text (host port : String) : Stage → String
  | .setsockopt => "setting SO_REUSEADDR to listen socket"
  | .bind => "binding listen socket to " ++ host ++ " " ++ port
  | .listen => "listening on socket " ++ host ++ " " ++ port

inductive SocketOutcome where
  | refused (errno : Int) (reported : EventLoop.Reported)
  | failed (fd : Int) (stage : Stage) (errno : Int) (reported : EventLoop.Reported)
  | listening (fd : Int)

structure AddrOutcome where
  name : NameInfo
  socket : SocketOutcome

inductive ResolveOutcome where
  | failed (rc : Int) (gaiStrerror : String) (reported : EventLoop.Reported)
  | found (addresses : List AddrOutcome)

/-- `listen_socket` after the loop over the addresses, and `failure`. -/
structure Opened where
  eventLoop : EventLoop
  listenSocket : List Int
  failure : Bool

namespace EventLoop

def nameAddress (self : EventLoop) (listenCmd : Addr) :
    NameInfo → Except Crash (EventLoop × String × String)
  | .found host port => .ok (self, host, port)
  | .failed rc gaiStrerror reported => do
      let self ← self.error listenCmd .eai rc (some ("resolving listen address: " ++ gaiStrerror))
        reported
      .ok (self, "?", "?")

/-- The loop of `_listen_cmd_xschedule_01` over the addresses. -/
def openSockets (listenCmd : Addr) (self : EventLoop) : List AddrOutcome → Except Crash Opened
  | [] => .ok ⟨self, [], false⟩
  | address :: rest => do
      let (self, host, port) ← self.nameAddress listenCmd address.name
      match address.socket with
      | .refused errno reported => do
          let self ← self.error listenCmd .errno errno (some "creating listen socket") reported
          .ok ⟨self, [], true⟩
      | .failed fd stage errno reported => do
          let self ← (self.openFd fd).error listenCmd .errno errno (some (stage.text host port))
            reported
          .ok ⟨self, [fd], true⟩
      | .listening fd => do
          let opened ← openSockets listenCmd (self.openFd fd) rest
          .ok { opened with listenSocket := fd :: opened.listenSocket }

/-- Allocate the array of watchers and start each of them. -/
def startWatchers (self : EventLoop) (listenCmd : Addr) (cmd : ListenCmd) (fds : List Int) :
    EventLoop :=
  let array := self.nextArray
  let self := { self with
    arrays := Function.update self.arrays array (some ⟨listenCmd, fds⟩)
    nextArray := array + 1 }
  let self := self.setListenCmd listenCmd { cmd with watchers := some array }
  let self := ((List.range fds.length).map (Io.listen array)).foldl ioStart self
  self.setListenCmd listenCmd { cmd with watchers := some array, status := .listening }

def listenCmdXschedule01 (self : EventLoop) (listenCmd : Addr) (outcome : ResolveOutcome) :
    Except Crash EventLoop :=
  match self.listenCmds listenCmd with
  | none => self.crash .dangling
  | some cmd =>
      let cmd := { cmd with status := .resolving }
      let self := self.setListenCmd listenCmd cmd
      match outcome with
      | .failed rc gaiStrerror reported =>
          let text := cmd.host.map fun host =>
            "resolving listen address " ++ host ++ " (port " ++ cmd.port ++ "): " ++ gaiStrerror
          self.error listenCmd .eai rc text reported
      | .found addresses => do
          let cmd := { cmd with watchersCount := addresses.length }
          let opened ← openSockets listenCmd (self.setListenCmd listenCmd cmd) addresses
          if opened.failure then
            .ok (opened.listenSocket.foldl closeFd opened.eventLoop)
          else
            .ok (opened.eventLoop.startWatchers listenCmd cmd opened.listenSocket)

def watcherFd (self : EventLoop) (array index : Nat) : Option Int :=
  (self.arrays array).bind fun watchers => watchers.fds[index]?

/-- The loop of `_listen_cmd_close` over the given indices. -/
def closeWatchers (array : Nat) (self : EventLoop) : List Nat → Except Crash EventLoop
  | [] => .ok self
  | index :: rest =>
      match self.watcherFd array index with
      | none => self.crash .watchersOverrun
      | some fd => closeWatchers array ((self.ioStop (.listen array index)).closeFd fd) rest

def listenCmdClose (self : EventLoop) (listenCmd : Addr) : Except Crash EventLoop :=
  match self.listenCmds listenCmd with
  | none => self.crash .dangling
  | some cmd =>
      if cmd.status = .init ∨ cmd.status = .resolving then
        .ok (self.setListenCmd listenCmd { cmd with status := .closed })
      else do
        let self ←
          match cmd.watchers with
          | none => .ok self
          | some array => closeWatchers array self (List.range cmd.watchersCount)
        .ok (self.setListenCmd listenCmd { cmd with status := .closed })

end EventLoop

/-- The descriptors that `socket` returned, up to the first call that failed. -/
def openedFds : List AddrOutcome → List Int
  | [] => []
  | address :: rest =>
      match address.socket with
      | .refused _ _ => []
      | .failed fd _ _ _ => [fd]
      | .listening fd => fd :: openedFds rest

def SocketOutcome.listens : SocketOutcome → Bool
  | .listening _ => true
  | _ => false

namespace ResolveOutcome

def addresses : ResolveOutcome → List AddrOutcome
  | .failed _ _ _ => []
  | .found addresses => addresses

def succeeds : ResolveOutcome → Bool
  | .failed _ _ _ => false
  | .found addresses => addresses.all fun address => address.socket.listens

/-- What becomes of `watchers_count`. -/
def count (before : Nat) : ResolveOutcome → Nat
  | .failed _ _ _ => before
  | .found addresses => addresses.length

/-- The kernel gives out no descriptor that is open. -/
def Fresh (outcome : ResolveOutcome) (openFds : Finset Int) : Prop :=
  (openedFds outcome.addresses).Nodup ∧ ∀ fd ∈ openedFds outcome.addresses, fd ∉ openFds

end ResolveOutcome

/-- The array whose watchers a close goes through. -/
def ListenCmd.closes (cmd : ListenCmd) : Option Nat :=
  if cmd.status = .init ∨ cmd.status = .resolving then none else cmd.watchers

theorem ListenCmd.watchers_of_closes {cmd : ListenCmd} {array : Nat}
    (closes : cmd.closes = some array) : cmd.watchers = some array := by
  unfold ListenCmd.closes at closes
  split at closes
  · cases closes
  · exact closes

theorem length_openedFds {addresses : List AddrOutcome}
    (all : addresses.all (fun address => address.socket.listens) = true) :
    (openedFds addresses).length = addresses.length := by
  induction addresses with
  | nil => rfl
  | cons address rest ih =>
      obtain ⟨name, socket⟩ := address
      rw [List.all_cons, Bool.and_eq_true] at all
      cases socket with
      | refused | failed => cases all.1
      | listening fd => simp [openedFds, ih all.2]

namespace EventLoop

variable {self : EventLoop}

theorem nameAddress_within (listenCmd : Addr) (name : NameInfo) :
    Within Gil.Released Gil.Released self.gil (fun named => named.1.gil)
      (fun named => ∃ gil, named.1 = { self with gil := gil })
      (self.nameAddress listenCmd name) := by
  cases name with
  | found host port =>
      apply Within.ok
      · exact fun _ released => released
      · exact ⟨_, rfl⟩
  | failed rc gaiStrerror reported =>
      apply Within.bind (error_within _ _ _ _ _ _)
      intro next same
      exact Within.ok (fun _ released => released) same

theorem openSockets_within (listenCmd : Addr) (addresses : List AddrOutcome) :
    ∀ {self : EventLoop}, Within Gil.Released Gil.Released self.gil
      (fun opened => opened.eventLoop.gil)
      (fun opened => opened.listenSocket = openedFds addresses ∧
        opened.failure = !addresses.all (fun address => address.socket.listens) ∧
        ∃ gil, opened.eventLoop = { self with
          openFds := self.openFds ∪ (openedFds addresses).toFinset, gil := gil })
      (openSockets listenCmd self addresses) := by
  induction addresses with
  | nil =>
      intro self
      apply Within.ok
      · exact fun _ released => released
      · exact ⟨rfl, rfl, self.gil, by simp [openedFds]⟩
  | cons address rest ih =>
      intro self
      obtain ⟨name, socket⟩ := address
      apply Within.bind (nameAddress_within listenCmd name)
      intro named same
      obtain ⟨after, host, port⟩ := named
      obtain ⟨gil, rfl⟩ := same
      cases socket with
      | refused errno reported =>
          apply Within.bind (error_within _ _ _ _ _ _)
          intro next same
          obtain ⟨gil, rfl⟩ := same
          apply Within.ok
          · exact fun _ released => released
          · exact ⟨rfl, rfl, gil, by simp [openedFds]⟩
      | failed fd stage errno reported =>
          apply Within.bind (error_within (openFd { self with gil := gil } fd) _ _ _ _ _)
          intro next same
          obtain ⟨gil, rfl⟩ := same
          apply Within.ok
          · exact fun _ released => released
          · refine ⟨rfl, rfl, gil, ?_⟩
            simp [openedFds, openFd]
      | listening fd =>
          apply Within.bind (@ih (openFd { self with gil := gil } fd))
          intro opened done
          obtain ⟨fds, failure, gil, same⟩ := done
          apply Within.ok
          · exact fun _ released => released
          · refine ⟨by simp [openedFds, fds], by simp [failure, SocketOutcome.listens], gil, ?_⟩
            simp [same, openedFds, openFd]

private theorem erase_sdiff_toFinset {α : Type} [DecidableEq α] (items : Finset α) (item : α)
    (others : List α) :
    items.erase item \ others.toFinset = items \ (item :: others).toFinset := by
  ext other
  simp only [Finset.mem_sdiff, Finset.mem_erase, List.toFinset_cons, Finset.mem_insert]
  tauto

/-- Closing what was freshly opened leaves the descriptors as they were. -/
private theorem closeFds_opened (fds : List Int) (nodup : fds.Nodup) :
    ∀ {self : EventLoop}, (∀ fd ∈ fds, fd ∈ self.openFds) →
      fds.foldl closeFd self = { self with openFds := self.openFds \ fds.toFinset } := by
  induction fds with
  | nil =>
      intro self _
      simp
  | cons fd fds ih =>
      intro self isOpen
      obtain ⟨absent, nodup⟩ := List.nodup_cons.mp nodup
      have closed : self.closeFd fd = { self with openFds := self.openFds.erase fd } :=
        if_pos (isOpen fd List.mem_cons_self)
      rw [List.foldl_cons, closed, ih nodup]
      · rw [erase_sdiff_toFinset]
      · intro other member
        have differs : other ≠ fd := fun same => absent (same ▸ member)
        exact Finset.mem_erase.mpr ⟨differs, isOpen other (List.mem_cons_of_mem _ member)⟩

/-- The watchers that an array of so many entries consists of. -/
def arrayWatchers (array count : Nat) : Finset Io :=
  ((List.range count).map (Io.listen array)).toFinset

theorem mem_arrayWatchers {array count : Nat} {io : Io} :
    io ∈ arrayWatchers array count ↔ ∃ index < count, io = .listen array index := by
  simp [arrayWatchers, eq_comm]

/-- What `_listen_cmd_xschedule_01` does to a listen command: it listens on all
addresses or leaves no socket open. -/
def Scheduled (self : EventLoop) (listenCmd : Addr) (cmd : ListenCmd) (outcome : ResolveOutcome)
    (next : EventLoop) : Prop :=
  if outcome.succeeds then
    ∃ loop gil, (self.Counted → next.Counted) ∧ next = { self with
      listenCmds := Function.update self.listenCmds listenCmd (some { cmd with
        status := .listening
        watchersCount := outcome.addresses.length
        watchers := some self.nextArray })
      arrays := Function.update self.arrays self.nextArray
        (some ⟨listenCmd, openedFds outcome.addresses⟩)
      nextArray := self.nextArray + 1
      active := self.active ∪ arrayWatchers self.nextArray outcome.addresses.length
      openFds := self.openFds ∪ (openedFds outcome.addresses).toFinset
      loop := loop
      gil := gil }
  else
    ∃ gil, next = { self with
      listenCmds := Function.update self.listenCmds listenCmd (some { cmd with
        status := .resolving
        watchersCount := outcome.count cmd.watchersCount })
      gil := gil }

private theorem startWatchers_eq (listenCmd : Addr) (cmd : ListenCmd) (fds : List Int) :
    ∃ loop, (self.Counted → (self.startWatchers listenCmd cmd fds).Counted) ∧
      self.startWatchers listenCmd cmd fds = { self with
        listenCmds := Function.update self.listenCmds listenCmd (some { cmd with
          status := .listening
          watchers := some self.nextArray })
        arrays := Function.update self.arrays self.nextArray (some ⟨listenCmd, fds⟩)
        nextArray := self.nextArray + 1
        active := self.active ∪ arrayWatchers self.nextArray fds.length
        loop := loop } := by
  let watchers := (List.range fds.length).map (Io.listen self.nextArray)
  let before := setListenCmd { self with
    arrays := Function.update self.arrays self.nextArray (some ⟨listenCmd, fds⟩)
    nextArray := self.nextArray + 1 } listenCmd { cmd with watchers := some self.nextArray }
  obtain ⟨loop, counts, same⟩ := @ioStarts_eq watchers before
  refine ⟨loop, counts, ?_⟩
  have started : self.startWatchers listenCmd cmd fds = (watchers.foldl ioStart before).setListenCmd
      listenCmd { cmd with watchers := some self.nextArray, status := .listening } := rfl
  rw [started, same]
  simp [before, setListenCmd, watchers, arrayWatchers]

theorem closeFd_gil (fd : Int) : (self.closeFd fd).gil = self.gil := by
  unfold closeFd
  split
  · rfl
  · rfl

theorem closeFds_gil (fds : List Int) : ∀ {self : EventLoop},
    (fds.foldl closeFd self).gil = self.gil := by
  induction fds with
  | nil => exact rfl
  | cons fd fds ih =>
      intro self
      exact ih.trans (closeFd_gil fd)

theorem listenCmdXschedule01_within (listenCmd : Addr) (outcome : ResolveOutcome) :
    Within Gil.Released Gil.Released self.gil EventLoop.gil
      (fun next => ∃ cmd, self.listenCmds listenCmd = some cmd ∧
        (outcome.Fresh self.openFds → self.Scheduled listenCmd cmd outcome next))
      (self.listenCmdXschedule01 listenCmd outcome) := by
  unfold listenCmdXschedule01
  cases found : self.listenCmds listenCmd with
  | none => exact fun _ released => released.disciplined
  | some cmd =>
  dsimp only
  cases outcome with
  | failed rc gaiStrerror reported =>
      apply (error_within (self.setListenCmd listenCmd { cmd with status := .resolving })
        _ _ _ _ _).mono
      intro next same
      obtain ⟨gil, rfl⟩ := same
      exact ⟨cmd, rfl, fun _ => ⟨gil, rfl⟩⟩
  | found addresses =>
      let sized : ListenCmd := { cmd with status := .resolving, watchersCount := addresses.length }
      let before := (self.setListenCmd listenCmd { cmd with status := .resolving }).setListenCmd
        listenCmd sized
      apply Within.bind (@openSockets_within listenCmd addresses before)
      intro opened done
      obtain ⟨eventLoop, fds, failure⟩ := opened
      obtain ⟨rfl, rfl, gil, rfl⟩ := done
      cases succeeds : addresses.all fun address => address.socket.listens with
      | true =>
          obtain ⟨loop, counts, same⟩ := @startWatchers_eq { before with
            openFds := before.openFds ∪ (openedFds addresses).toFinset, gil := gil }
            listenCmd sized (openedFds addresses)
          simp only [Bool.not_true, Bool.false_eq_true, if_false]
          rw [same]
          apply Within.ok
          · exact fun _ released => released
          · refine ⟨cmd, rfl, fun fresh => ?_⟩
            unfold Scheduled
            rw [if_pos (show ResolveOutcome.succeeds (.found addresses) = true from succeeds)]
            refine ⟨loop, gil, same ▸ counts, ?_⟩
            simp [before, sized, setListenCmd, ResolveOutcome.addresses, length_openedFds succeeds]
      | false =>
          simp only [Bool.not_false, if_true]
          apply Within.ok
          · intro _ released
            rwa [closeFds_gil]
          · refine ⟨cmd, rfl, fun fresh => ?_⟩
            have nodup : (openedFds addresses).Nodup := fresh.1
            have unopened : ∀ fd ∈ openedFds addresses, fd ∉ self.openFds := fresh.2
            rw [closeFds_opened _ nodup fun fd member => by simp [member]]
            unfold Scheduled
            rw [if_neg (by simp [ResolveOutcome.succeeds, succeeds])]
            refine ⟨gil, ?_⟩
            have closed : (self.openFds ∪ (openedFds addresses).toFinset) \
                (openedFds addresses).toFinset = self.openFds := by
              rw [Finset.union_sdiff_cancel_right]
              exact Finset.disjoint_right.mpr fun fd member =>
                unopened fd (List.mem_toFinset.mp member)
            simp [before, sized, setListenCmd, ResolveOutcome.count, closed]

/-- The descriptors of the watchers at the given indices. -/
def watcherFds (self : EventLoop) (array : Nat) (indices : List Nat) : List Int :=
  indices.filterMap (self.watcherFd array)

/-- What the loop of `_listen_cmd_close` does: it stops the watchers and closes
their descriptors, where these are open. -/
structure WatchersClosed (self : EventLoop) (array : Nat) (indices : List Nat)
    (next : EventLoop) : Prop where
  changed : ∃ loop badCloses, next = { self with
    active := self.active \ (indices.map (Io.listen array)).toFinset
    openFds := self.openFds \ (self.watcherFds array indices).toFinset
    loop := loop
    badCloses := badCloses }
  counted : self.Counted → next.Counted
  inside : ∀ index ∈ indices, (self.watcherFd array index).isSome
  all_open : (self.watcherFds array indices).Nodup →
    (∀ fd ∈ self.watcherFds array indices, fd ∈ self.openFds) → next.badCloses = self.badCloses
  not_open : ∀ fd ∈ self.watcherFds array indices, fd ∉ self.openFds → fd ∈ next.badCloses
  kept : self.badCloses ⊆ next.badCloses

theorem closeFd_eq (fd : Int) : ∃ badCloses,
    self.closeFd fd = { self with openFds := self.openFds.erase fd, badCloses := badCloses } ∧
      self.badCloses ⊆ badCloses ∧ (fd ∈ self.openFds → badCloses = self.badCloses) ∧
      (fd ∉ self.openFds → fd ∈ badCloses) := by
  unfold closeFd
  split
  · rename_i isOpen
    exact ⟨_, rfl, List.Subset.refl _, fun _ => rfl, fun closed => absurd isOpen closed⟩
  · rename_i closed
    refine ⟨_, by rw [Finset.erase_eq_of_notMem closed], List.subset_append_left _ _,
      fun isOpen => absurd isOpen closed, fun _ => by simp⟩

theorem closeWatchers_within (array : Nat) (indices : List Nat) : ∀ {self : EventLoop},
    Within Gil.Held Gil.Held self.gil EventLoop.gil (self.WatchersClosed array indices)
      (closeWatchers array self indices) := by
  induction indices with
  | nil =>
      intro self
      apply Within.ok
      · exact fun _ held => held
      · exact ⟨⟨self.loop, self.badCloses, by simp [watcherFds]⟩, fun counted => counted,
          by simp, fun _ _ => rfl, by simp [watcherFds], List.Subset.refl _⟩
  | cons index rest ih =>
      intro self
      unfold closeWatchers
      cases found : self.watcherFd array index with
      | none => exact fun _ held => held.disciplined
      | some fd =>
          obtain ⟨loop, stopped⟩ := @ioStop_eq self (.listen array index)
          obtain ⟨badCloses, closed, keptBad, wasOpen, wasClosed⟩ :=
            @closeFd_eq (self.ioStop (.listen array index)) fd
          have counts : self.Counted → (self.ioStop (.listen array index)).Counted :=
            Counted.ioStop
          have listed : self.watcherFds array (index :: rest) = fd :: self.watcherFds array rest :=
            List.filterMap_cons_some found
          dsimp only
          rw [closed]
          rw [stopped] at counts keptBad wasOpen wasClosed ⊢
          apply (@ih { self with
            active := self.active.erase (.listen array index), loop := loop,
            openFds := self.openFds.erase fd, badCloses := badCloses }).mono
          intro next done
          obtain ⟨⟨last, lastBad, rfl⟩, counted, inside, allOpen, notOpen, kept⟩ := done
          have sameFds : ∀ loop active openFds badCloses, watcherFds { self with
            active := active, loop := loop, openFds := openFds, badCloses := badCloses }
              array rest =
              self.watcherFds array rest := fun _ _ _ _ => rfl
          simp only [sameFds] at allOpen notOpen kept ⊢
          refine ⟨⟨last, lastBad, ?_⟩, fun before => counted (counts before), ?_, ?_, ?_, ?_⟩
          · rw [erase_sdiff_toFinset, erase_sdiff_toFinset, listed, List.map_cons]
          · intro other member
            rcases List.mem_cons.mp member with rfl | later
            · simp [found]
            · exact inside other later
          · intro nodup isOpen
            rw [listed] at nodup isOpen
            obtain ⟨absent, nodup⟩ := List.nodup_cons.mp nodup
            rw [allOpen nodup, wasOpen (isOpen fd List.mem_cons_self)]
            intro other member
            have differs : other ≠ fd := fun same => absent (same ▸ member)
            exact Finset.mem_erase.mpr ⟨differs, isOpen other (List.mem_cons_of_mem _ member)⟩
          · intro other member closedBefore
            rw [listed] at member
            rcases List.mem_cons.mp member with rfl | later
            · exact kept (wasClosed closedBefore)
            · exact notOpen other later fun isOpen => closedBefore (Finset.mem_of_mem_erase isOpen)
          · exact fun other member => kept (keptBad member)

private theorem watcherFd_closed (array index : Nat) (io : Io) (fd : Int) :
    ((self.ioStop io).closeFd fd).watcherFd array index = self.watcherFd array index := by
  unfold closeFd ioStop
  split
  all_goals split
  all_goals rfl

private theorem closeWatchers_returns (array : Nat) (indices : List Nat) : ∀ {self : EventLoop},
    (∀ index ∈ indices, (self.watcherFd array index).isSome) →
      ∃ next, closeWatchers array self indices = .ok next := by
  induction indices with
  | nil => exact fun _ => ⟨_, rfl⟩
  | cons index rest ih =>
      intro self inside
      obtain ⟨fd, found⟩ := Option.isSome_iff_exists.mp (inside index List.mem_cons_self)
      obtain ⟨next, closed⟩ := @ih ((self.ioStop (.listen array index)).closeFd fd)
        fun other member => by
          rw [watcherFd_closed]
          exact inside other (List.mem_cons_of_mem _ member)
      exact ⟨next, by rw [closeWatchers, found]; exact closed⟩

/-- What `_listen_cmd_close` does to a listen command. -/
def ListenCmdClosed (self : EventLoop) (listenCmd : Addr) (cmd : ListenCmd)
    (next : EventLoop) : Prop :=
  ∃ before, next = before.setListenCmd listenCmd { cmd with status := .closed } ∧
    match cmd.closes with
    | none => before = self
    | some array => self.WatchersClosed array (List.range cmd.watchersCount) before

theorem listenCmdClose_within (listenCmd : Addr) :
    Within Gil.Held Gil.Held self.gil EventLoop.gil
      (fun next => ∃ cmd, self.listenCmds listenCmd = some cmd ∧
        self.ListenCmdClosed listenCmd cmd next)
      (self.listenCmdClose listenCmd) := by
  unfold listenCmdClose
  cases found : self.listenCmds listenCmd with
  | none => exact fun _ held => held.disciplined
  | some cmd =>
      dsimp only
      by_cases unopened : cmd.status = .init ∨ cmd.status = .resolving
      · rw [if_pos unopened]
        apply Within.ok
        · exact fun _ held => held
        · exact ⟨cmd, rfl, self, rfl, by simp [ListenCmd.closes, unopened]⟩
      · rw [if_neg unopened]
        have closes : cmd.closes = cmd.watchers := if_neg unopened
        unfold ListenCmdClosed
        cases watchers : cmd.watchers with
        | none =>
            apply Within.ok
            · exact fun _ held => held
            · exact ⟨cmd, rfl, self, by rw [watchers], by simp [closes, watchers]⟩
        | some array =>
            apply Within.bind (closeWatchers_within array _)
            intro before closed
            apply Within.ok
            · exact fun _ held => held
            · refine ⟨cmd, rfl, before, by rw [watchers], ?_⟩
              rw [closes, watchers]
              exact closed

theorem listenCmdClose_returns {listenCmd : Addr} {cmd : ListenCmd}
    (found : self.listenCmds listenCmd = some cmd)
    (inside : ∀ array, cmd.closes = some array →
      ∀ index < cmd.watchersCount, (self.watcherFd array index).isSome) :
    ∃ next, self.listenCmdClose listenCmd = .ok next := by
  unfold listenCmdClose
  rw [found]
  by_cases unopened : cmd.status = .init ∨ cmd.status = .resolving
  · exact ⟨_, if_pos unopened⟩
  · simp only [if_neg unopened]
    cases watchers : cmd.watchers with
    | none => exact ⟨_, rfl⟩
    | some array =>
        have closes : cmd.closes = some array := (if_neg unopened).trans watchers
        obtain ⟨before, closed⟩ := @closeWatchers_returns array (List.range cmd.watchersCount) self
          fun index member => inside array closes index (List.mem_range.mp member)
        simp only [closed]
        exact ⟨_, rfl⟩

end EventLoop

end Striga.Pyglev
