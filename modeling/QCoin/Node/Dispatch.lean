import QCoin.Node.Admission
import QCoin.Node.Handlers
import QCoin.Node.StandIns
import QCoin.Support.Rounds

/-!
# Dispatch of received frames

`drain_frames` hands the frames of a socket to their handlers until none is
left or a handler fails.
-/

namespace QCoin

open Support
open Support.Stateful

/-! ## The loop -/

/-- A frame as it is received, and the outside world while it is handled. -/
structure ReceivedFrame where
  env : Environment
  source : SocketAddr
  bytes : Bytes

/-- What one call of `recv_frame` returns, unless it would block. -/
inductive Receipt where
  | frame (frame : ReceivedFrame)
  | failure (err : String)

/-- The service while it drains a socket, and the frames it has passed to
`handle_frame` so far. -/
structure Drain where
  service : NodeService
  passed : List ReceivedFrame

section Loop

variable [WireCodec] [Blake3] [Bincode] [PqCrypto]

/-- Pass one frame to its handler. -/
def Drain.pass (config : ServiceConfig) (frame : ReceivedFrame) :
    Stateful Drain String Unit :=
  call fun drain =>
    let (result, session) :=
      (Service.handleFrame config frame.env frame.source frame.bytes).exec
        (Session.start drain.service)
    (result, ⟨session.service, drain.passed ++ [frame]⟩)

/-- The receipts end where the socket would block. -/
def drainFrames (config : ServiceConfig) :
    (handled : ℕ) → List Receipt → Stateful Drain String ℕ
  | handled, [] => return handled
  | _, .failure err :: _ => fail ("failed to receive qcoin UDP frame: " ++ err)
  | handled, .frame frame :: receipts => do
      Drain.pass config frame
      drainFrames config (handled + 1) receipts

namespace NodeService

variable (config : ServiceConfig)

def afterFrame (service : NodeService) (frame : ReceivedFrame) : NodeService :=
  (service.handleFrame config frame.env frame.source frame.bytes).service

/-- The frame is decoded to a message which meets a state that stops its
handler. -/
def StoppedBy (service : NodeService) (frame : ReceivedFrame) : Prop :=
  frame.source ∉ config.localAddrs ∧
    ∃ message, WireMessage.decode frame.bytes = .ok message ∧
      service.Stops config frame.env frame.source message

end NodeService

variable {config : ServiceConfig}

theorem Service.returns_handleFrame {service : NodeService}
    {frame : ReceivedFrame} :
    Returns (handleFrame config frame.env frame.source frame.bytes)
        (Session.start service) ↔
      ¬service.StoppedBy config frame := by
  rw [handleFrame, NodeService.StoppedBy]
  by_cases hlocal : frame.source ∈ config.localAddrs
  · rw [if_pos hlocal]
    exact iff_of_true trivial fun h => h.1 hlocal
  · rw [if_neg hlocal]
    cases WireMessage.decode frame.bytes with
    | error err =>
        refine iff_of_true trivial ?_
        rintro ⟨-, message, ⟨⟩, -⟩
    | ok message =>
        simp only [hlocal, not_false_iff, true_and, Except.ok.injEq,
          exists_eq_left']
        exact returns_handleMessage

/-- The drain after a frame is passed to its handler. -/
def Drain.next (config : ServiceConfig) (drain : Drain)
    (frame : ReceivedFrame) : Drain :=
  ⟨drain.service.afterFrame config frame, drain.passed ++ [frame]⟩

theorem Drain.after_pass (frame : ReceivedFrame) (drain : Drain) :
    (Drain.pass config frame).after drain = drain.next config frame := rfl

theorem Drain.returns_pass (frame : ReceivedFrame) (drain : Drain) :
    Returns (Drain.pass config frame) drain ↔
      ¬drain.service.StoppedBy config frame := by
  rw [← Service.returns_handleFrame, returns_iff, returns_iff]
  rfl

theorem Drain.foldl_next (frames : List ReceivedFrame) (drain : Drain) :
    frames.foldl (Drain.next config) drain =
      ⟨frames.foldl (NodeService.afterFrame config) drain.service,
        drain.passed ++ frames⟩ := by
  induction frames generalizing drain with
  | nil => rw [List.append_nil]; rfl
  | cons frame frames ih =>
      rw [List.foldl_cons, ih, Drain.next, List.append_assoc]
      rfl

/-- Counting the frames aside, draining them is a loop over them. -/
theorem after_drainFrames (handled : ℕ) (frames : List ReceivedFrame)
    (drain : Drain) :
    (drainFrames config handled (frames.map .frame)).after drain =
      (frames.forM (Drain.pass config)).after drain := by
  induction frames generalizing handled drain with
  | nil => rfl
  | cons frame frames ih =>
      change (Drain.pass config frame >>= fun _ =>
          drainFrames config (handled + 1) (frames.map .frame)).after drain =
        (Drain.pass config frame >>= fun _ =>
          frames.forM (Drain.pass config)).after drain
      exact after_bind_congr _ (fun _ => ih (handled + 1)) drain

/-- All frames are passed on unless one before the last stops the loop. -/
theorem passed_drainFrames {handled : ℕ} {frames : List ReceivedFrame}
    {drain : Drain} :
    ((drainFrames config handled (frames.map .frame)).after drain).passed =
        drain.passed ++ frames ↔
      ∀ before frame after, frames = before ++ frame :: after → after ≠ [] →
        ¬(before.foldl (NodeService.afterFrame config)
          drain.service).StoppedBy config frame := by
  obtain ⟨made, hmade⟩ := @Rounds.exists_made _ _
    (fun frame (drain : Drain) => drain.service.StoppedBy config frame)
    (Drain.next config) frames drain
  rw [after_drainFrames,
    hmade.after_forM Drain.after_pass Drain.returns_pass, Drain.foldl_next,
    List.append_cancel_left_eq, hmade.eq_iff]
  simp only [Drain.foldl_next]

/-- One call of `drain_frames` passes every queued frame to its handler
exactly if no frame before the last one stops it in the state it meets. -/
theorem drainFrames_passes_iff (config : ServiceConfig)
    (service : NodeService) (frames : List ReceivedFrame) :
    ((drainFrames config 0 (frames.map .frame)).after
        ⟨service, []⟩).passed = frames ↔
      ∀ before frame after, frames = before ++ frame :: after → after ≠ [] →
        ¬(before.foldl (NodeService.afterFrame config) service).StoppedBy
          config frame :=
  passed_drainFrames

end Loop

/-! ## A rejected peer -/

section RejectedPeer

open StandIns

def foreignInfo : NodeInfo := ⟨WIRE_VERSION, 1, "", 1, "", []⟩

def foreignInfoFrame : Bytes :=
  QCOIN_WIRE_MAGIC ++ (leBytes 4 1 ++ encodeNodeInfo foreignInfo)

def tipRequestFrame : Bytes := QCOIN_WIRE_MAGIC ++ leBytes 4 2

def otherPeerAddr : SocketAddr := .v4 0x7f000001 9900

/-- A peer of another chain asks for the tip, and another peer announces
itself. -/
def blockedQueue : List ReceivedFrame :=
  [⟨workingEnvironment, peerAddr, foreignInfoFrame⟩,
    ⟨workingEnvironment, peerAddr, tipRequestFrame⟩,
    ⟨workingEnvironment, otherPeerAddr, announceFrame⟩]

def foreignRejection : String :=
  "peer chain id 1 does not match local chain id 0"

theorem afterFrame_foreignInfo :
    (NodeService.new (freshRuntime 1 [])).afterFrame plainConfig
      ⟨workingEnvironment, peerAddr, foreignInfoFrame⟩ =
    { NodeService.new (freshRuntime 1 []) with
      syncState := SyncState.new.reject peerAddr foreignRejection } := by
  rfl

/-- The request of a peer which was just turned away keeps the frame behind it
from its handler. -/
theorem turnedAway_blocks :
    ((drainFrames plainConfig 0 (blockedQueue.map .frame)).after
      ⟨NodeService.new (freshRuntime 1 []), []⟩).passed ≠ blockedQueue := by
  intro hpassed
  have hfree := passed_drainFrames.mp hpassed
    [⟨workingEnvironment, peerAddr, foreignInfoFrame⟩]
    ⟨workingEnvironment, peerAddr, tipRequestFrame⟩
    [⟨workingEnvironment, otherPeerAddr, announceFrame⟩] rfl
    (List.cons_ne_nil _ _)
  rw [List.foldl_cons, List.foldl_nil, afterFrame_foreignInfo] at hfree
  refine hfree ⟨Finset.notMem_empty _, .tipRequest, rfl, .inl ⟨?_, ?_⟩⟩
  · exact Finset.notMem_empty _
  · exact Finmap.mem_insert.mpr (.inl rfl)

end RejectedPeer

end QCoin
