import BattleRoyale.Acknowledgements
import BattleRoyale.CommandWords
import BattleRoyale.LineSources

/-!
# What a refusal changes

A command that is refused, for any reason but a closed lobby, and a snapshot that fits, change
the send buffer of the client and nothing else.
-/

namespace BattleRoyale

open Recorded

variable {F : Type}

/-- The states differ at most in the send buffer of one client. -/
def OnlyOutbuf (i : Slot) (s t : ServerState F) : Prop :=
  ∃ outbuf, t = s.setPlayer i { s.players i with outbuf := outbuf }

theorem OnlyOutbuf.refl (i : Slot) (s : ServerState F) : OnlyOutbuf i s s := by
  refine ⟨(s.players i).outbuf, ?_⟩
  unfold ServerState.setPlayer
  rw [Function.update_eq_self]

theorem OnlyOutbuf.trans {i : Slot} {s t u : ServerState F} (h : OnlyOutbuf i s t)
    (h' : OnlyOutbuf i t u) : OnlyOutbuf i s u := by
  obtain ⟨outbuf, rfl⟩ := h
  obtain ⟨outbuf', rfl⟩ := h'
  refine ⟨outbuf', ?_⟩
  unfold ServerState.setPlayer
  simp only [Function.update_self, Function.update_idem]

variable [CFloat F]

/-- A call for a line changes the send buffer at most. -/
theorem queueTo_onlyOutbuf (via : Via) (line : ServerLine F) (i : Slot) (w : Server F) :
    OnlyOutbuf i w.state (queueTo via line i w).2.state := by
  unfold queueTo
  split
  · rename_i p hp
    rw [Player.queueVia_eq_some hp]
    exact ⟨_, rfl⟩
  · exact .refl i _

/-- So do lines in a row. -/
theorem queueSeq_onlyOutbuf (via : Via) (lines : List (Server F → ServerLine F)) (i : Slot)
    (w : Server F) : OnlyOutbuf i w.state (queueSeq via lines i w).2.state := by
  induction lines generalizing w with
  | nil => exact .refl i _
  | cons line lines ih =>
    have hcall := queueTo_onlyOutbuf via (line w) i w
    unfold queueSeq
    split <;> rename_i v hq <;> rw [hq] at hcall
    · exact hcall.trans (ih v)
    · exact hcall

/-- The entry is about an `ERROR` line with another reason than a closed lobby. -/
def Event.refuses : Event F → Bool
  | .queued _ _ (.error reason) => reason != .lobbyClosed
  | .refused _ _ (.error reason) => reason != .lobbyClosed
  | _ => false

/-- What sends only lines with values from the state sends no such refusal. -/
theorem Printed.not_refuses {w v : Server F} (h : Printed w v) :
    ∀ x ∈ added w v, x.event.refuses = false := by
  obtain ⟨_, new, hlog, hkept⟩ := h.kept
  rw [added_eq hlog]
  rintro x hx
  have hentry := hkept x hx
  unfold Event.refuses
  split
  · rename_i i via reason hevent
    have hclosed : reason = .lobbyClosed := (hentry i via _ (.inl hevent)).1
    simp [hclosed]
  · rename_i i via reason hevent
    have hclosed : reason = .lobbyClosed := (hentry i via _ (.inr hevent)).1
    simp [hclosed]
  · rfl

/-- The state in which the loop calls `handle_command`: a line was taken from the buffer. -/
def Called (i : Slot) (w v : Server F) : Prop :=
  v = w ∨ ∃ line p, (w.state.players i).popLine MAX_LINE = some (line, p) ∧
    v = w.record (.popped i line) (w.state.setPlayer i p)

theorem Called.bounded {i : Slot} {w v : Server F} (h : Called i w v) (hw : Bounded w) :
    Bounded v := by
  rcases h with rfl | ⟨line, p, hpop, rfl⟩
  · exact hw
  · obtain ⟨inbuf, rfl⟩ := popLine_eq hpop
    have hpopped : Printed w (w.record (.popped i line)
        (w.state.setPlayer i { w.state.players i with inbuf := inbuf })) :=
      .assignSlot hw rfl (.inl rfl)
    exact hpopped.bounded hw

/-- When `handle_command` answers a line by an `ERROR` line other than `ERROR lobby_closed`,
or the line is a GET_STATE whose snapshot fits, only the send buffer of the client differs
afterwards. -/
theorem handleCommand_frame {loopOnly : Bool} {w v : Server F} (hw : Reached loopOnly w)
    {i : Slot} (hv : Called i w v) (line : List Char)
    (h : (∃ x ∈ added v (handleCommand i line v), x.event.refuses = true) ∨
      ∃ args, selectCommand (cString line) = some (.getState, args) ∧
        (queueGameStateForPlayer i v).1 = true) :
    OnlyOutbuf i v.state (handleCommand i line v).state := by
  rcases h with ⟨x, hx, hrefuses⟩ | ⟨args, hselect, hfits⟩
  · rcases handleCommand_printed i line (hv.bounded hw.lines_sourced.1) with
      ⟨reason, heq⟩ | hprinted
    · rw [heq]
      exact queueTo_onlyOutbuf .line _ i v
    · rw [hprinted.not_refuses x hx] at hrefuses
      cases hrefuses
  · rw [handleCommand_selected, hselect]
    show OnlyOutbuf i v.state (handleGetStateCommand i v).state
    have hsnap := queueSeq_onlyOutbuf .checked (snapshotLines v.state i) i v
    unfold handleGetStateCommand
    split <;> rename_i u hq
    · rw [queueGameStateForPlayer] at hq
      rwa [hq] at hsnap
    · rw [hq] at hfits
      cases hfits

/-- A client without a name asks for a type, and is refused. -/
theorem handleCommand_frame_unnamed :
    OnlyOutbuf 0 (serverAfter (fun _ => 1) [.accept 3]).state
      (handleCommand 0 "CHOICE R".toList (serverAfter (fun _ => 1) [.accept 3])).state := by
  have hreached : Reached true (serverAfter (fun _ => 1) [.accept 3]) :=
    reached_serverAfter _ rfl
  have hrefused : ((added (serverAfter (fun _ => 1) [.accept 3]) (handleCommand 0
      "CHOICE R".toList (serverAfter (fun _ => 1) [.accept 3]))).any
        fun x => x.event.refuses) = true := by decide +kernel
  obtain ⟨x, hx, hrefuses⟩ := List.any_eq_true.mp hrefused
  exact handleCommand_frame hreached (.inl rfl) _ (.inl ⟨x, hx, hrefuses⟩)

end BattleRoyale
