import ProtobufLkm.ResourceLedger
import ProtobufLkm.TcpSegmentModel

/-!
# The packet copies the hook owns

`skb_copy` gives the hook a buffer of its own and `kfree_skb` takes it back; the
packet itself stays the kernel's and is only read. The hook frees its copy when
`skb_linearize` fails. When that succeeds the copy goes to `handle_tcp_payload`,
which never frees it.
-/

namespace ProtobufLkm.NetfilterCopyOwnership

open ByteCodec SkBuffModel NetfilterHookModel TcpSegmentModel ResourceLedger

set_option autoImplicit false

/-- A call of the hook with the outcomes `skb_copy` and `skb_linearize` have in
it. `skb_linearize` works on the buffer it is given. -/
structure HookCall where
  api : SkbApi
  skb : Option SkBuff
  in_place : ∀ skb, (api.skbLinearize skb).2.address = skb.address

def eventAction : HookEvent → Option (Action Nat)
  | .skbCopy none => none
  | .skbCopy (some address) => some (.acquire address)
  | .skbLinearize address _ => some (.use address)
  | .kfreeSkb address => some (.release address)
  | .extractMessageSize address _ => some (.use address)
  | .processMessage address _ _ _ => some (.use address)

/-- The buffer the kernel lends for the duration of the call. -/
def HookCall.borrowed (call : HookCall) (address : Nat) : Bool :=
  call.skb.any fun skb => skb.address = address

/-- The buffers the hook owns after the call, none after a double or early free. -/
def ownedAfter (processMessage : List Byte → Verdict) (call : HookCall) (owned : List Nat) :
    Option (List Nat) :=
  held call.borrowed owned
    ((hookFunc call.api processMessage call.skb).events.filterMap eventAction)

/-- The call takes the branch that hands a linear copy to `handle_tcp_payload`. -/
def HookCall.HandsCopy (call : HookCall) : Prop :=
  ∃ skb copied, call.skb = some skb ∧ IpSelected skb.view ∧
    TcpSelected skb.view skb.transportHeader ∧ skb.isNonlinear = true ∧
    call.api.skbCopy skb = some copied ∧ (call.api.skbLinearize copied).1 = 0

section Call

variable (processMessage : List Byte → Verdict)

theorem payload_actions (skb : SkBuff) :
    ∀ action ∈ (handleTcpPayload processMessage skb).events.filterMap eventAction,
      action = .use skb.address := by
  intro action member
  obtain ⟨event, member, acts⟩ := List.mem_filterMap.mp member
  simp only [handleTcpPayload] at member
  split_ifs at member <;> simp only [List.mem_cons, List.not_mem_nil, or_false] at member
  · rcases member with rfl | rfl <;> exact (Option.some.inj acts).symm
  · rw [member] at acts
    exact (Option.some.inj acts).symm

variable {processMessage}

theorem unselected_owned {call : HookCall} {skb : SkBuff} (given : call.skb = some skb)
    (unselected : ¬(IpSelected skb.view ∧ TcpSelected skb.view skb.transportHeader))
    (owned : List Nat) : ownedAfter processMessage call owned = some owned := by
  rw [ownedAfter, given, hook_func_unselected call.api processMessage unselected]
  rfl

theorem linear_owned {call : HookCall} {skb : SkBuff} (given : call.skb = some skb)
    (ip : IpSelected skb.view) (tcp : TcpSelected skb.view skb.transportHeader)
    (linear : skb.isNonlinear = false) (owned : List Nat) :
    ownedAfter processMessage call owned = some owned := by
  rw [ownedAfter, given, hook_func_linear call.api processMessage ip tcp linear]
  apply held_uses
  intro action member
  refine ⟨skb.address, payload_actions processMessage skb action member, Or.inr ?_⟩
  simp [HookCall.borrowed, given]

theorem uncopied_owned {call : HookCall} {skb : SkBuff} (given : call.skb = some skb)
    (ip : IpSelected skb.view) (tcp : TcpSelected skb.view skb.transportHeader)
    (nonlinear : skb.isNonlinear = true) (failed : call.api.skbCopy skb = none)
    (owned : List Nat) : ownedAfter processMessage call owned = some owned := by
  rw [ownedAfter, given, hook_func_copy_failed processMessage ip tcp nonlinear failed]
  rfl

theorem unlinearized_owned {call : HookCall} {skb copied : SkBuff} (given : call.skb = some skb)
    (ip : IpSelected skb.view) (tcp : TcpSelected skb.view skb.transportHeader)
    (nonlinear : skb.isNonlinear = true) (success : call.api.skbCopy skb = some copied)
    (failed : (call.api.skbLinearize copied).1 ≠ 0) (owned : List Nat) :
    ownedAfter processMessage call owned = some owned := by
  rw [ownedAfter, given, hook_func_linearize_failed processMessage ip tcp nonlinear success failed]
  exact held_acquire_use_release owned copied.address

/-- The copy is still owned when `handle_tcp_payload` returns. -/
theorem handed_copy_owned {call : HookCall} {skb copied : SkBuff} (given : call.skb = some skb)
    (ip : IpSelected skb.view) (tcp : TcpSelected skb.view skb.transportHeader)
    (nonlinear : skb.isNonlinear = true) (success : call.api.skbCopy skb = some copied)
    (linearized : (call.api.skbLinearize copied).1 = 0) (owned : List Nat) :
    ownedAfter processMessage call owned = some (copied.address :: owned) := by
  rw [ownedAfter, given, hook_func_linearized processMessage ip tcp nonlinear success linearized,
    HookRun.after, List.filterMap_append]
  have reads : ∀ action ∈ (handleTcpPayload processMessage
      (call.api.skbLinearize copied).2).events.filterMap eventAction,
      action = .use copied.address := by
    intro action member
    rw [← call.in_place copied]
    exact payload_actions processMessage _ action member
  change held call.borrowed (copied.address :: owned) (.use copied.address ::
    (handleTcpPayload processMessage (call.api.skbLinearize copied).2).events.filterMap
      eventAction) = _
  apply held_uses
  intro action member
  refine ⟨copied.address, ?_, Or.inl List.mem_cons_self⟩
  rcases List.mem_cons.mp member with first | later
  · exact first
  · exact reads action later

/-- What one call does to the ledger: nothing, or it adds the copy it handed over. -/
theorem hook_call_owned (call : HookCall) (owned : List Nat) :
    (¬call.HandsCopy ∧ ownedAfter processMessage call owned = some owned) ∨
      (call.HandsCopy ∧ ∃ address,
        ownedAfter processMessage call owned = some (address :: owned)) := by
  cases given : call.skb with
  | none =>
      refine Or.inl ⟨?_, by rw [ownedAfter, given]; rfl⟩
      rintro ⟨skb, copied, other, _⟩
      rw [given] at other
      cases other
  | some skb =>
      by_cases handed : call.HandsCopy
      · obtain ⟨other, copied, same, ip, tcp, nonlinear, success, linearized⟩ := handed
        exact Or.inr ⟨⟨other, copied, same, ip, tcp, nonlinear, success, linearized⟩,
          copied.address, handed_copy_owned same ip tcp nonlinear success linearized owned⟩
      · refine Or.inl ⟨handed, ?_⟩
        by_cases selected : IpSelected skb.view ∧ TcpSelected skb.view skb.transportHeader
        · obtain ⟨ip, tcp⟩ := selected
          cases nonlinear : skb.isNonlinear with
          | false => exact linear_owned given ip tcp nonlinear owned
          | true =>
              cases success : call.api.skbCopy skb with
              | none => exact uncopied_owned given ip tcp nonlinear success owned
              | some copied =>
                  apply unlinearized_owned given ip tcp nonlinear success
                  intro linearized
                  exact handed ⟨skb, copied, given, ip, tcp, nonlinear, success, linearized⟩
        · exact unselected_owned given selected owned

/-- No call frees a buffer it does not own or reads one it has freed. -/
theorem hook_call_faultless (call : HookCall) (owned : List Nat) :
    ownedAfter processMessage call owned ≠ none := by
  rcases hook_call_owned call owned with ⟨_, same⟩ | ⟨_, address, grown⟩
  · rw [same]
    exact Option.some_ne_none owned
  · rw [grown]
    exact Option.some_ne_none (address :: owned)

end Call

/-- From any ledger, every call of a run keeps the number of buffers the hook
owns, without a fault, exactly when no call hands a copy over. -/
theorem hook_run_steady_iff (processMessage : List Byte → Verdict) (owned : List Nat)
    (calls : List HookCall) :
    Steady (ownedAfter processMessage) owned calls ↔ ∀ call ∈ calls, ¬call.HandsCopy := by
  apply steady_iff
  · intro call owned keeps
    rcases hook_call_owned call owned with ⟨_, same⟩ | ⟨hands, _⟩
    · exact ⟨owned, same, rfl⟩
    · exact absurd hands keeps
  · intro call owned next ran count
    rcases hook_call_owned call owned with ⟨keeps, _⟩ | ⟨_, address, grown⟩
    · exact keeps
    · rw [grown, Option.some.injEq] at ran
      rw [← ran, List.length_cons] at count
      omega

section Leak

/-- A frame of seven bytes with its headers in the linear head and its payload
in a page fragment. -/
def fragmentedSegment : TcpSegment :=
  plainSegment true [0, 0, 0, 3, 8, 150, 1] (by decide) 40 (by decide) (by decide) fun _ => 0

def fragmentedCall : HookCall where
  api := copyingApi fun _ => 0
  skb := some fragmentedSegment.toSkBuff
  in_place _ := rfl

theorem fragmented_call_leaks :
    ownedAfter (fun _ => .accept) fragmentedCall [] = some [0] ∧
      ¬Steady (ownedAfter fun _ => .accept) [] [fragmentedCall] := by
  have pushed : fragmentedSegment.psh = true := plain_segment_psh _ _ _ _
  have leaks : ownedAfter (fun _ => .accept) fragmentedCall [] = some [0] :=
    @handed_copy_owned (fun _ => .accept) fragmentedCall fragmentedSegment.toSkBuff _ rfl
      fragmentedSegment.view_ip_selected (fragmentedSegment.view_tcp_selected pushed)
      (by decide) rfl rfl []
  refine ⟨leaks, ?_⟩
  rintro ⟨next, ran, count, _⟩
  rw [leaks, Option.some.injEq] at ran
  rw [← ran] at count
  cases count

end Leak

end ProtobufLkm.NetfilterCopyOwnership
