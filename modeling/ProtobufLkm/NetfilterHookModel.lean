import ProtobufLkm.SkBuffModel
import ProtobufLkm.MessageSizeModel

/-!
# The netfilter hook of the generated module

`hook_func` and the functions it calls, as the generated `main.c` and the three
netfilter examples contain them. `process_message` is the user's code and a
parameter. Besides the verdict a run records, in order, every call that reads
payload bytes and every operation on the packet copy; `pr_info` and `printk`
lines are left out.
-/

namespace ProtobufLkm.NetfilterHookModel

open ByteCodec ByteMemory SkBuffModel MessageSizeModel

set_option autoImplicit false

def myPort : Nat := 60001

def bufferSize : Nat := 1024

/-- `NF_DROP` and `NF_ACCEPT`. -/
inductive Verdict where
  | drop
  | accept
  deriving DecidableEq, Repr

/-- Buffers are named by their address, payload positions by their offset from
the network header. -/
inductive HookEvent where
  | skbCopy (address : Option Nat)
  | skbLinearize (address : Nat) (ret : Int)
  | kfreeSkb (address : Nat)
  | extractMessageSize (address buffer : Nat)
  | processMessage (address buffer : Nat) (message : List Byte) (size : Int)
  deriving DecidableEq, Repr

structure HookRun where
  events : List HookEvent
  verdict : Verdict
  deriving DecidableEq, Repr

def HookRun.after (earlier : List HookEvent) (run : HookRun) : HookRun :=
  { events := earlier ++ run.events, verdict := run.verdict }

/-- The arguments of a `process_message` call: the bytes it is given and the size. -/
def HookEvent.call : HookEvent → Option (List Byte × Int)
  | .processMessage _ _ message size => some (message, size)
  | _ => none

def HookRun.calls (run : HookRun) : List (List Byte × Int) := run.events.filterMap HookEvent.call

def extractMessageSize (memory : Memory) (buffer : Nat) : Int :=
  MessageSizeModel.extractMessageSize bufferSize memory buffer

/-- The local `payload_len`: an `int` difference stored in a `uint32_t`. -/
def payloadLen (skb : SkBuff) : Nat :=
  toUInt32 ((swap16 (ipTotLen skb.view) : Int) - (ipIhl skb.view : Int) * 4 -
    (tcpDoff skb.view skb.transportHeader : Int) * 4)

/-- The local `buffer`, the first byte after the TCP header. -/
def payloadBuffer (skb : SkBuff) : Nat :=
  skb.transportHeader + tcpDoff skb.view skb.transportHeader * 4

def handleTcpPayload (processMessage : List Byte → Verdict) (skb : SkBuff) : HookRun :=
  if payloadLen skb > 0 then
    let buffer := payloadBuffer skb
    let size := extractMessageSize skb.view buffer
    if size > 0 then
      let message := load skb.view (buffer + 4) size.toNat
      { events := [.extractMessageSize skb.address buffer,
          .processMessage skb.address (buffer + 4) message size]
        verdict := processMessage message }
    else
      { events := [.extractMessageSize skb.address buffer], verdict := .accept }
  else
    { events := [], verdict := .accept }

def hookFunc (api : SkbApi) (processMessage : List Byte → Verdict) : Option SkBuff → HookRun
  | none => { events := [], verdict := .accept }
  | some skb =>
      if ipProtocol skb.view = ipprotoTcp ∧ ipDaddr skb.view = swap32 inaddrLoopback then
        -- The TCP header is read here, before the buffer is known to be linear.
        let tcp := skb.transportHeader
        let destPort := swap16 (tcpDest skb.view tcp)
        if destPort = myPort ∧ tcpPsh skb.view tcp ≠ 0 then
          if skb.isNonlinear then
            match api.skbCopy skb with
            | none => { events := [.skbCopy none], verdict := .drop }
            | some skbLinear =>
                let (ret, linearized) := api.skbLinearize skbLinear
                if ret ≠ 0 then
                  { events := [.skbCopy (some skbLinear.address),
                      .skbLinearize skbLinear.address ret, .kfreeSkb skbLinear.address]
                    verdict := .drop }
                else
                  (handleTcpPayload processMessage linearized).after
                    [.skbCopy (some skbLinear.address), .skbLinearize skbLinear.address ret]
          else handleTcpPayload processMessage skb
        else { events := [], verdict := .accept }
      else { events := [], verdict := .accept }

@[simp] theorem after_verdict (earlier : List HookEvent) (run : HookRun) :
    (run.after earlier).verdict = run.verdict := rfl

/-- Operations on the copy come before the payload is read and call nothing. -/
theorem after_calls {earlier : List HookEvent} (quiet : earlier.filterMap HookEvent.call = [])
    (run : HookRun) : (run.after earlier).calls = run.calls := by
  simp only [HookRun.calls, HookRun.after, List.filterMap_append, quiet, List.nil_append]

def payloadSize (skb : SkBuff) : Nat := declaredSize skb.view (payloadBuffer skb)

theorem handle_tcp_payload_empty (processMessage : List Byte → Verdict) {skb : SkBuff}
    (empty : payloadLen skb = 0) :
    handleTcpPayload processMessage skb = { events := [], verdict := .accept } :=
  if_neg (by omega)

theorem handle_tcp_payload_refused (processMessage : List Byte → Verdict) {skb : SkBuff}
    (nonempty : 0 < payloadLen skb)
    (refused : payloadSize skb = 0 ∨ bufferSize ≤ payloadSize skb) :
    handleTcpPayload processMessage skb =
      { events := [.extractMessageSize skb.address (payloadBuffer skb)], verdict := .accept } := by
  have negative : extractMessageSize skb.view (payloadBuffer skb) ≤ 0 :=
    extract_message_size_refuses refused
  simp only [handleTcpPayload]
  rw [if_pos nonempty, if_neg (by omega)]

theorem handle_tcp_payload_message (processMessage : List Byte → Verdict) {skb : SkBuff}
    (nonempty : 0 < payloadLen skb)
    (positive : 1 ≤ payloadSize skb) (small : payloadSize skb < bufferSize) :
    handleTcpPayload processMessage skb =
      { events := [.extractMessageSize skb.address (payloadBuffer skb),
          .processMessage skb.address (payloadBuffer skb + 4)
            (load skb.view (payloadBuffer skb + 4) (payloadSize skb)) (payloadSize skb)]
        verdict := processMessage (load skb.view (payloadBuffer skb + 4) (payloadSize skb)) } := by
  have size : extractMessageSize skb.view (payloadBuffer skb) = payloadSize skb :=
    extract_message_size_accepts (by decide) small
  simp only [handleTcpPayload, size, Int.toNat_natCast]
  rw [if_pos nonempty, if_pos (by omega)]

/-- The IP header fields select the packet: TCP to the loopback address. -/
def IpSelected (memory : Memory) : Prop :=
  ipProtocol memory = ipprotoTcp ∧ decodeBE (load memory 16 4) = inaddrLoopback

/-- The TCP header fields select the packet: destination port and `PSH`. -/
def TcpSelected (memory : Memory) (tcp : Nat) : Prop :=
  decodeBE (load memory (tcp + 2) 2) = myPort ∧ tcpPsh memory tcp ≠ 0

instance (memory : Memory) : Decidable (IpSelected memory) :=
  inferInstanceAs (Decidable (_ ∧ _))

instance (memory : Memory) (tcp : Nat) : Decidable (TcpSelected memory tcp) :=
  inferInstanceAs (Decidable (_ ∧ _))

theorem ip_selected_iff (memory : Memory) :
    (ipProtocol memory = ipprotoTcp ∧ ipDaddr memory = swap32 inaddrLoopback) ↔
      IpSelected memory := by
  rw [IpSelected, ipDaddr, decode_le_eq_swap32_iff (load_length _ _ _) (by decide)]

theorem tcp_selected_iff (memory : Memory) (tcp : Nat) :
    (swap16 (tcpDest memory tcp) = myPort ∧ tcpPsh memory tcp ≠ 0) ↔ TcpSelected memory tcp := by
  rw [TcpSelected, tcpDest, swap16_decode_le _ (load_length _ _ _)]

theorem hook_func_unselected (api : SkbApi) (processMessage : List Byte → Verdict) {skb : SkBuff}
    (unselected : ¬(IpSelected skb.view ∧ TcpSelected skb.view skb.transportHeader)) :
    hookFunc api processMessage (some skb) = { events := [], verdict := .accept } := by
  rw [← ip_selected_iff, ← tcp_selected_iff] at unselected
  simp only [hookFunc]
  by_cases ip : ipProtocol skb.view = ipprotoTcp ∧ ipDaddr skb.view = swap32 inaddrLoopback
  · rw [if_pos ip, if_neg fun tcp => unselected ⟨ip, tcp⟩]
  · rw [if_neg ip]

theorem hook_func_linear (api : SkbApi) (processMessage : List Byte → Verdict) {skb : SkBuff}
    (ip : IpSelected skb.view) (tcp : TcpSelected skb.view skb.transportHeader)
    (linear : skb.isNonlinear = false) :
    hookFunc api processMessage (some skb) = handleTcpPayload processMessage skb := by
  rw [← ip_selected_iff] at ip
  rw [← tcp_selected_iff] at tcp
  simp only [hookFunc]
  rw [if_pos ip, if_pos tcp, if_neg (by simp [linear])]

theorem hook_func_copy_failed {api : SkbApi} (processMessage : List Byte → Verdict) {skb : SkBuff}
    (ip : IpSelected skb.view) (tcp : TcpSelected skb.view skb.transportHeader)
    (nonlinear : skb.isNonlinear = true) (failed : api.skbCopy skb = none) :
    hookFunc api processMessage (some skb) = { events := [.skbCopy none], verdict := .drop } := by
  rw [← ip_selected_iff] at ip
  rw [← tcp_selected_iff] at tcp
  simp only [hookFunc]
  rw [if_pos ip, if_pos tcp, if_pos nonlinear, failed]

theorem hook_func_linearize_failed {api : SkbApi} (processMessage : List Byte → Verdict)
    {skb copied : SkBuff} (ip : IpSelected skb.view)
    (tcp : TcpSelected skb.view skb.transportHeader) (nonlinear : skb.isNonlinear = true)
    (success : api.skbCopy skb = some copied) (failed : (api.skbLinearize copied).1 ≠ 0) :
    hookFunc api processMessage (some skb) =
      { events := [.skbCopy (some copied.address),
          .skbLinearize copied.address (api.skbLinearize copied).1, .kfreeSkb copied.address]
        verdict := .drop } := by
  rw [← ip_selected_iff] at ip
  rw [← tcp_selected_iff] at tcp
  simp only [hookFunc]
  rw [if_pos ip, if_pos tcp, if_pos nonlinear, success]
  simp only
  rw [if_pos failed]

theorem hook_func_linearized {api : SkbApi} (processMessage : List Byte → Verdict)
    {skb copied : SkBuff} (ip : IpSelected skb.view)
    (tcp : TcpSelected skb.view skb.transportHeader) (nonlinear : skb.isNonlinear = true)
    (success : api.skbCopy skb = some copied) (linearized : (api.skbLinearize copied).1 = 0) :
    hookFunc api processMessage (some skb) =
      (handleTcpPayload processMessage (api.skbLinearize copied).2).after
        [.skbCopy (some copied.address), .skbLinearize copied.address 0] := by
  rw [← ip_selected_iff] at ip
  rw [← tcp_selected_iff] at tcp
  simp only [hookFunc]
  rw [if_pos ip, if_pos tcp, if_pos nonlinear, success]
  simp only
  rw [if_neg (not_not.mpr linearized), linearized]

theorem hook_func_copied {api : SkbApi} (faithful : api.Faithful)
    (processMessage : List Byte → Verdict) {skb copied : SkBuff}
    (ip : IpSelected skb.view) (tcp : TcpSelected skb.view skb.transportHeader)
    (nonlinear : skb.isNonlinear = true) (success : api.skbCopy skb = some copied) :
    hookFunc api processMessage (some skb) =
      (handleTcpPayload processMessage copied).after
        [.skbCopy (some copied.address), .skbLinearize copied.address 0] := by
  have unchanged := faithful.linearize_linear copied (faithful.copy_linear _ _ success)
  have linearized : (api.skbLinearize copied).1 = 0 := by rw [unchanged]
  rw [hook_func_linearized processMessage ip tcp nonlinear success linearized, unchanged]

end ProtobufLkm.NetfilterHookModel
