import Striga.Pyglev.ListenCmdCalls

/-! The first `_listen_cmd_xschedule_01` of a listen command as a transaction: it
listens on all addresses, or on none and tells `on_error` why. -/

set_option autoImplicit false

namespace Striga.Pyglev

open Lib

namespace Gil

/-- What the interpreter was asked stays on record. -/
def Continues (before after : Gil) : Prop := before.trace <+: after.trace

/-- The interpreter was asked for the given call in between. -/
def Asked (before after : Gil) (call : PyCall) : Prop :=
  ∃ events, after.trace = before.trace ++ events ∧ .call call ∈ events

variable {first second third : Gil} {call : PyCall}

theorem Continues.trans (before : first.Continues second) (later : second.Continues third) :
    first.Continues third := List.IsPrefix.trans before later

theorem Asked.after (before : first.Continues second) (asked : second.Asked third call) :
    first.Asked third call := by
  obtain ⟨earlier, same⟩ := before
  obtain ⟨events, trace, member⟩ := asked
  exact ⟨earlier ++ events, by rw [trace, ← same, List.append_assoc],
    List.mem_append_right _ member⟩

theorem Asked.continues (asked : first.Asked second call) : first.Continues second := by
  obtain ⟨events, trace, _⟩ := asked
  exact ⟨events, trace.symm⟩

end Gil

/-- The host and the port as they stand in the texts of the errors. -/
def NameInfo.strings : NameInfo → String × String
  | .found host port => (host, port)
  | .failed _ _ _ => ("?", "?")

/-- What `on_error` is told of a call on an address that fails. -/
def AddrOutcome.notification (listenCmd : Addr) (address : AddrOutcome) : Option PyCall :=
  match address.socket with
  | .refused errno reported => some (.callOnError listenCmd ErrorType.errno.code errno
      ("creating listen socket" ++ ": " ++ reported.strerror))
  | .failed _ stage errno reported => some (.callOnError listenCmd ErrorType.errno.code errno
      (stage.text address.name.strings.1 address.name.strings.2 ++ ": " ++ reported.strerror))
  | .listening _ => none

/-- What `on_error` is told of the call that makes the scheduling fail. -/
def ResolveOutcome.notification (listenCmd : Addr) (cmd : ListenCmd) :
    ResolveOutcome → Option PyCall
  | .failed rc gaiStrerror _ => cmd.host.map fun host =>
      .callOnError listenCmd ErrorType.eai.code rc
        ("resolving listen address " ++ host ++ " (port " ++ cmd.port ++ "): " ++ gaiStrerror)
  | .found addresses => addresses.findSome? fun address => address.notification listenCmd

theorem AddrOutcome.notification_eq_none_iff {listenCmd : Addr} {address : AddrOutcome} :
    address.notification listenCmd = none ↔ address.socket.listens = true := by
  unfold AddrOutcome.notification
  cases address.socket with
  | refused | failed | listening => simp [SocketOutcome.listens]

namespace EventLoop

variable {self next : EventLoop}

private theorem error_asks (subject : Addr) (errorType : ErrorType) (errorCode : Int)
    (text : String) (reported : Reported) :
    ∃ next, self.error subject errorType errorCode (some text) reported = .ok next ∧
      self.gil.Asked next.gil (.callOnError subject errorType.code errorCode
        (if errorType = .errno then text ++ ": " ++ reported.strerror else text)) := by
  refine ⟨_, rfl, .restoreThread :: ([.longFromLong, .longFromLong, .unicodeFromFormat].map
    PyEvent.call ++ (reportCalls subject errorType errorCode text reported).map PyEvent.call ++
      [.saveThread]), ?_, ?_⟩
  · simp [restoreThread, saveThread, calls, Gil.restoreThread, Gil.saveThread, Gil.calls]
  · cases errorType <;> simp [reportCalls]

private theorem nameAddress_continues (listenCmd : Addr) (name : NameInfo) :
    ∃ next, self.nameAddress listenCmd name = .ok (next, name.strings.1, name.strings.2) ∧
      self.gil.Continues next.gil := by
  cases name with
  | found host port => exact ⟨self, rfl, List.prefix_rfl⟩
  | failed rc gaiStrerror reported =>
      obtain ⟨next, done, asked⟩ := @error_asks self listenCmd .eai rc
        ("resolving listen address: " ++ gaiStrerror) reported
      exact ⟨next, by rw [nameAddress, done]; rfl, asked.continues⟩

/-- The loop over the addresses comes to its end; if a call has failed, `on_error`
has been told of it. -/
private theorem openSockets_asks (listenCmd : Addr) (addresses : List AddrOutcome) :
    ∀ {self : EventLoop}, ∃ opened, openSockets listenCmd self addresses = .ok opened ∧
      self.gil.Continues opened.eventLoop.gil ∧
      ∀ call ∈ addresses.findSome? fun address => address.notification listenCmd,
        self.gil.Asked opened.eventLoop.gil call := by
  induction addresses with
  | nil =>
      intro self
      exact ⟨_, rfl, List.prefix_rfl, by simp⟩
  | cons address rest ih =>
      intro self
      obtain ⟨name, socket⟩ := address
      obtain ⟨named, done, continues⟩ := @nameAddress_continues self listenCmd name
      rw [openSockets, done]
      cases socket with
      | refused errno reported =>
          obtain ⟨next, failed, asked⟩ := @error_asks named listenCmd .errno errno
            "creating listen socket" reported
          have told := asked.after continues
          refine ⟨⟨next, [], true⟩, by simp only [Except.bind, bind, failed], told.continues, ?_⟩
          intro call member
          cases member
          exact told
      | failed fd stage errno reported =>
          obtain ⟨next, failed, asked⟩ := @error_asks (named.openFd fd) listenCmd .errno errno
            (stage.text name.strings.1 name.strings.2) reported
          have told := asked.after continues
          refine ⟨⟨next, [fd], true⟩, by simp only [Except.bind, bind, failed], told.continues, ?_⟩
          intro call member
          cases member
          exact told
      | listening fd =>
          obtain ⟨opened, later, onwards, told⟩ := @ih (named.openFd fd)
          refine ⟨{ opened with listenSocket := fd :: opened.listenSocket }, ?_,
            continues.trans onwards, ?_⟩
          · simp only [Except.bind, bind, later]
          · exact fun call member => (told call member).after continues

private theorem fails_notifies {listenCmd : Addr} {addresses : List AddrOutcome}
    (fails : (addresses.all fun address => address.socket.listens) = false) :
    ∃ call, addresses.findSome? (fun address => address.notification listenCmd) = some call := by
  rw [← Option.isSome_iff_exists, List.findSome?_isSome_iff]
  rw [List.all_eq_false] at fails
  obtain ⟨address, member, fails⟩ := fails
  refine ⟨address, member, ?_⟩
  rw [Option.isSome_iff_ne_none, Ne, AddrOutcome.notification_eq_none_iff]
  exact fails

/-- The report of a failed resolution has a host to format. -/
def Formats (cmd : ListenCmd) (outcome : ResolveOutcome) : Prop :=
  ∀ rc gaiStrerror reported, outcome = .failed rc gaiStrerror reported → cmd.host ≠ none

private theorem listenCmdXschedule01_asks {listenCmd : Addr} {cmd : ListenCmd}
    {outcome : ResolveOutcome}
    (found : self.listenCmds listenCmd = some cmd) (formats : Formats cmd outcome) :
    ∃ next, self.listenCmdXschedule01 listenCmd outcome = .ok next ∧
      (outcome.succeeds = false → ∃ call ∈ outcome.notification listenCmd cmd,
        self.gil.Asked next.gil call) := by
  unfold listenCmdXschedule01
  rw [found]
  cases outcome with
  | failed rc gaiStrerror reported =>
      obtain ⟨link, _ | host, port, status, count, watchers⟩ := cmd
      · exact absurd rfl (formats rc gaiStrerror reported rfl)
      · obtain ⟨next, done, asked⟩ := @error_asks (self.setListenCmd listenCmd
          ⟨link, some host, port, .resolving, count, watchers⟩) listenCmd .eai rc
          ("resolving listen address " ++ host ++ " (port " ++ port ++ "): " ++
            gaiStrerror) reported
        exact ⟨next, done, fun _ => ⟨_, rfl, asked⟩⟩
  | found addresses =>
      let sized : ListenCmd := { cmd with status := .resolving, watchersCount := addresses.length }
      let before := (self.setListenCmd listenCmd { cmd with status := .resolving }).setListenCmd
        listenCmd sized
      obtain ⟨opened, done, _, told⟩ := @openSockets_asks listenCmd addresses before
      have failure := ((openSockets_within listenCmd addresses).of_ok done).2.1
      cases succeeds : addresses.all fun address => address.socket.listens with
      | true =>
          refine ⟨opened.eventLoop.startWatchers listenCmd sized opened.listenSocket, ?_, ?_⟩
          · change openSockets listenCmd before addresses >>= _ = _
            rw [done]
            simp [bind, Except.bind, failure, succeeds, sized]
          · exact fun fails => absurd (succeeds.symm.trans fails) (by decide)
      | false =>
          refine ⟨opened.listenSocket.foldl closeFd opened.eventLoop, ?_, fun _ => ?_⟩
          · change openSockets listenCmd before addresses >>= _ = _
            rw [done]
            simp [bind, Except.bind, failure, succeeds]
          · obtain ⟨call, notified⟩ := @fails_notifies listenCmd addresses succeeds
            rw [closeFds_gil]
            exact ⟨call, notified, told call notified⟩

/-- One active watcher on one new open socket for each address. -/
structure ListensOnAll (start : EventLoop) (listenCmd : Addr) (addresses : List AddrOutcome)
    (cmd : ListenCmd) (next : EventLoop) : Prop where
  status : cmd.status = .listening
  count : cmd.watchersCount = addresses.length
  watches : next.Watches listenCmd cmd (next.openFds \ start.openFds)
  sockets : (next.openFds \ start.openFds).card = addresses.length
  started : ∃ array, cmd.watchers = some array ∧
    next.active = start.active ∪ arrayWatchers array cmd.watchersCount

structure ListensOnNone (start : EventLoop) (notification : Option PyCall) (cmd : ListenCmd)
    (next : EventLoop) : Prop where
  watchers : cmd.watchers = none
  active : next.active = start.active
  openFds : next.openFds = start.openFds
  notified : ∃ call ∈ notification, start.gil.Asked next.gil call

/-- The scheduling of a listen command, and a close that may follow it. No socket is
closed twice, by either of them. -/
structure Transactional (start : EventLoop) (listenCmd : Addr) (cmd : ListenCmd)
    (outcome : ResolveOutcome) (next : EventLoop) : Prop where
  outcome : ∃ after, next.listenCmds listenCmd = some after ∧
    (start.ListensOnAll listenCmd outcome.addresses after next ∨
      start.ListensOnNone (outcome.notification listenCmd cmd) after next)
  once : next.badCloses = start.badCloses
  closes : ∃ closed, next.listenCmdClose listenCmd = .ok closed ∧
    closed.openFds = start.openFds ∧ closed.active ⊆ start.active ∧
    closed.badCloses = start.badCloses

variable {listenCmd : Addr} {cmd : ListenCmd} {outcome : ResolveOutcome}

private theorem union_sdiff_of_fresh (fresh : outcome.Fresh self.openFds) :
    (self.openFds ∪ (openedFds outcome.addresses).toFinset) \
      (openedFds outcome.addresses).toFinset = self.openFds := by
  rw [Finset.union_sdiff_cancel_right]
  exact Finset.disjoint_right.mpr fun fd member => fresh.2 fd (List.mem_toFinset.mp member)

private theorem opened_sdiff (fresh : outcome.Fresh self.openFds) :
    (self.openFds ∪ (openedFds outcome.addresses).toFinset) \ self.openFds =
      (openedFds outcome.addresses).toFinset := by
  rw [Finset.union_sdiff_cancel_left]
  exact Finset.disjoint_right.mpr fun fd member => fresh.2 fd (List.mem_toFinset.mp member)

/-- A close of a listen command whose sockets are all open, and nobody else's. -/
private theorem listenCmdClose_watched {array : Nat} {fds : List Int}
    (found : self.listenCmds listenCmd = some cmd) (listening : cmd.status = .listening)
    (watchers : cmd.watchers = some array) (allocated : self.arrays array = some ⟨listenCmd, fds⟩)
    (length : fds.length = cmd.watchersCount) (nodup : fds.Nodup)
    (isOpen : ∀ fd ∈ fds, fd ∈ self.openFds) :
    ∃ closed, self.listenCmdClose listenCmd = .ok closed ∧
      closed.openFds = self.openFds \ fds.toFinset ∧
      closed.active = self.active \ arrayWatchers array cmd.watchersCount ∧
      closed.badCloses = self.badCloses := by
  have closes : cmd.closes = some array := by simp [ListenCmd.closes, listening, watchers]
  have listed := ListenCmdCalls.watcherFds_range allocated length
  obtain ⟨closed, done⟩ := listenCmdClose_returns found fun other closesOther index inside => by
    cases closes.symm.trans closesOther
    rw [← length] at inside
    simp [watcherFd, allocated, inside]
  obtain ⟨same, foundSame, before, rfl, spec⟩ := (listenCmdClose_within listenCmd).of_ok done
  cases found.symm.trans foundSame
  rw [closes] at spec
  obtain ⟨⟨loop, badCloses, rfl⟩, _, _, allOpen, _⟩ := spec
  rw [listed] at allOpen
  exact ⟨_, done, by rw [← listed]; rfl, rfl, allOpen nodup isOpen⟩

theorem Transactional.of_succeeds (fresh : outcome.Fresh self.openFds)
    (succeeds : outcome.succeeds = true) (scheduled : self.Scheduled listenCmd cmd outcome next) :
    self.Transactional listenCmd cmd outcome next := by
  have length : (openedFds outcome.addresses).length = outcome.addresses.length := by
    cases outcome with
    | failed rc gaiStrerror reported => cases succeeds
    | found addresses => exact length_openedFds succeeds
  obtain ⟨loop, gil, _, rfl⟩ := (if_pos succeeds).mp scheduled
  constructor
  · refine ⟨_, Function.update_self .., .inl ⟨rfl, rfl, ?_, ?_, _, rfl, rfl⟩⟩
    · refine ⟨_, _, rfl, Function.update_self .., length, fresh.1, ?_, Finset.subset_union_right⟩
      intro fd member
      rw [opened_sdiff fresh]
      exact List.mem_toFinset.mpr member
    · rw [opened_sdiff fresh, List.toFinset_card_of_nodup fresh.1, length]
  · rfl
  · obtain ⟨closed, done, openFds, active, once⟩ := @listenCmdClose_watched
      { self with
        listenCmds := Function.update self.listenCmds listenCmd (some { cmd with
          status := .listening
          watchersCount := outcome.addresses.length
          watchers := some self.nextArray })
        arrays := Function.update self.arrays self.nextArray
          (some ⟨listenCmd, openedFds outcome.addresses⟩)
        nextArray := self.nextArray + 1
        active := self.active ∪ arrayWatchers self.nextArray outcome.addresses.length
        openFds := self.openFds ∪ (openedFds outcome.addresses).toFinset
        loop := loop
        gil := gil }
      listenCmd _ self.nextArray (openedFds outcome.addresses)
      (Function.update_self ..) rfl rfl (Function.update_self ..) length fresh.1
      (fun fd member => Finset.mem_union_right _ (List.mem_toFinset.mpr member))
    refine ⟨closed, done, openFds.trans (union_sdiff_of_fresh fresh), ?_, once⟩
    rw [active, Finset.union_sdiff_right]
    exact Finset.sdiff_subset

theorem Transactional.of_fails (unwatched : cmd.watchers = none)
    (fails : ¬ outcome.succeeds = true) (scheduled : self.Scheduled listenCmd cmd outcome next)
    (notified : ∃ call ∈ outcome.notification listenCmd cmd, self.gil.Asked next.gil call) :
    self.Transactional listenCmd cmd outcome next := by
  obtain ⟨gil, rfl⟩ := (if_neg fails).mp scheduled
  constructor
  · exact ⟨_, Function.update_self .., .inr ⟨unwatched, rfl, rfl, notified⟩⟩
  · rfl
  · let after : ListenCmd := { cmd with
      status := .resolving, watchersCount := outcome.count cmd.watchersCount }
    let failed : EventLoop := { self with
      listenCmds := Function.update self.listenCmds listenCmd (some after), gil := gil }
    have found : failed.listenCmds listenCmd = some after := Function.update_self ..
    refine ⟨failed.setListenCmd listenCmd { after with status := .closed }, ?_, rfl,
      Finset.Subset.refl _, rfl⟩
    change failed.listenCmdClose listenCmd = _
    rw [listenCmdClose, found]
    rfl

theorem listenCmdXschedule01_transactional_iff (eventLoop : EventLoop) (listenCmd : Addr)
    (cmd : ListenCmd) (outcome : ResolveOutcome)
    (found : eventLoop.listenCmds listenCmd = some cmd) (unwatched : cmd.watchers = none)
    (fresh : outcome.Fresh eventLoop.openFds) :
    (∃ next, eventLoop.listenCmdXschedule01 listenCmd outcome = .ok next ∧
        eventLoop.Transactional listenCmd cmd outcome next) ↔
      Formats cmd outcome := by
  constructor
  · intro transactional
    obtain ⟨next, done, _⟩ := transactional
    intro rc gaiStrerror reported failed host
    subst failed
    simp only [listenCmdXschedule01, found, host, Option.map_none] at done
    cases done
  · intro formats
    obtain ⟨next, done, notified⟩ := listenCmdXschedule01_asks found formats
    obtain ⟨same, foundSame, scheduled⟩ :=
      (listenCmdXschedule01_within listenCmd outcome).of_ok done
    cases found.symm.trans foundSame
    refine ⟨next, done, ?_⟩
    cases succeeds : outcome.succeeds with
    | true => exact .of_succeeds fresh succeeds (scheduled fresh)
    | false =>
        have fails : ¬ outcome.succeeds = true := by simp [succeeds]
        exact .of_fails unwatched fails (scheduled fresh) (notified succeeds)

/-- The first of two addresses listens, the second is refused, and nothing is left open. -/
theorem transactional_second_refused :
    let outcome : ResolveOutcome := .found [⟨.found "::" "8080", .listening 5⟩,
      ⟨.found "0.0.0.0" "8080", .refused 98 ⟨none, "Address already in use"⟩⟩]
    ∃ next, ListenCmdCalls.constructed.listenCmdXschedule01 0 outcome = .ok next ∧
      next.openFds = ∅ ∧
      ListenCmdCalls.constructed.Transactional 0 ⟨none, none, "8080", .init, 0, none⟩ outcome
        next := by
  intro outcome
  have fresh : outcome.Fresh ListenCmdCalls.constructed.openFds :=
    ⟨by decide, fun fd _ isOpen => by cases isOpen⟩
  obtain ⟨next, done, transactional⟩ := (listenCmdXschedule01_transactional_iff
    ListenCmdCalls.constructed 0 _ outcome rfl rfl fresh).mpr
      fun _ _ _ failed => by simp [outcome] at failed
  refine ⟨next, done, ?_, transactional⟩
  cases done
  decide

/-- A command for all interfaces, whose port does not resolve: the report formats
a host that is NULL. -/
theorem not_transactional_any_host :
    ¬ ∃ next, ListenCmdCalls.constructed.listenCmdXschedule01 0
        (.failed (-8) "Servname not supported for ai_socktype" ⟨none, ""⟩) = .ok next ∧
      ListenCmdCalls.constructed.Transactional 0 ⟨none, none, "8080", .init, 0, none⟩
        (.failed (-8) "Servname not supported for ai_socktype" ⟨none, ""⟩) next := by
  intro transactional
  obtain ⟨next, done, _⟩ := transactional
  cases done

end EventLoop

end Striga.Pyglev
