import BattleRoyale.StepRefinement
import BattleRoyale.Exact

/-!
# Nobody joins a running match, and nobody comes back

From the closing of the lobby to the next reset, no action adds an identifier to the
admitted players, or to the contenders: the admitted players that are alive or still
wait for the first round. This holds for every action, also for those of
`resolve_round`, and so for any two moments of a match.
-/

namespace BattleRoyale

open Recorded

variable {F : Type}

/-- The player is admitted, and alive or waiting. -/
def Player.isContender (p : Player F) : Bool := p.isAdmitted && (p.alive || p.waiting)

/-- The identifiers of the connected admitted players. -/
def participants (s : ServerState F) : Set ℕ :=
  {n | ∃ i, (s.players i).isAdmitted = true ∧ (s.players i).id = n}

/-- The identifiers of the contenders. -/
def contenders (s : ServerState F) : Set ℕ :=
  {n | ∃ i, (s.players i).isContender = true ∧ (s.players i).id = n}

/-- One slot after an action, compared with the slot before it. -/
def Dwindles (p q : Player F) : Prop :=
  (q.isAdmitted = true → p.isAdmitted = true ∧ q.id = p.id) ∧
    (q.isContender = true → p.isContender = true)

/-- A contender is admitted. -/
theorem Player.isAdmitted_of_isContender {p : Player F} (h : p.isContender = true) :
    p.isAdmitted = true := by
  simp only [isContender, Bool.and_eq_true] at h
  exact h.1

theorem Dwindles.refl (p : Player F) : Dwindles p p := ⟨fun h => ⟨h, rfl⟩, fun h => h⟩

theorem Dwindles.trans {p q r : Player F} (h : Dwindles p q) (h' : Dwindles q r) :
    Dwindles p r := by
  refine ⟨fun hr => ?_, fun hr => h.2 (h'.2 hr)⟩
  obtain ⟨hq, hid⟩ := h'.1 hr
  exact ⟨(h.1 hq).1, hid.trans (h.1 hq).2⟩

/-- A slot with the same flags and identifier. -/
theorem Dwindles.same {p q : Player F} (h : q.isAdmitted = p.isAdmitted ∧ q.id = p.id ∧
    q.isContender = p.isContender) : Dwindles p q :=
  ⟨fun hq => ⟨h.1 ▸ hq, h.2.1⟩, fun hq => h.2.2 ▸ hq⟩

/-- The loser of a pair. -/
theorem Dwindles.eliminated [CFloat F] (p : Player F) : Dwindles p
    { p with alive := false, inRound := false, x := CFloat.lit (-1), y := CFloat.lit (-1) } := by
  refine ⟨fun hq => ⟨hq, rfl⟩, fun hq => ?_⟩
  simp only [Player.isContender, Bool.and_eq_true, Bool.or_eq_true] at hq ⊢
  exact ⟨hq.1, hq.2.imp_left (by simp)⟩

/-- A slot without an admitted player is never more than the slot before it. -/
theorem Dwindles.of_not_admitted {p q : Player F} (h : q.isAdmitted = false) : Dwindles p q := by
  constructor
  · intro hq
    rw [h] at hq
    cases hq
  · intro hq
    have hadmitted := Player.isAdmitted_of_isContender hq
    rw [h] at hadmitted
    cases hadmitted

/-- Replacing one entry. -/
theorem dwindles_setPlayer {s : ServerState F} {i j : Slot} {p : Player F}
    (h : Dwindles (s.players i) p) :
    Dwindles (s.players j) ((s.setPlayer i p).players j) := by
  by_cases hj : j = i
  · subst hj
    rwa [ServerState.setPlayer_self]
  · rw [ServerState.setPlayer_of_ne _ _ hj]
    exact .refl _

/-- `start_round` turns contenders into contenders. -/
theorem Dwindles.enterRound (p : Player F) : Dwindles p p.enterRound := by
  unfold Player.enterRound
  simp only
  split
  · rename_i hin
    have hp : p.isContender = true := hin
    exact ⟨fun hq => ⟨hq, rfl⟩, fun _ => hp⟩
  · exact ⟨fun hq => ⟨hq, rfl⟩, fun hq => hq⟩

/-- Slots that dwindle keep the identifiers among the old ones. -/
theorem subset_of_dwindles {s t : ServerState F}
    (h : ∀ i, Dwindles (s.players i) (t.players i)) :
    participants t ⊆ participants s ∧ contenders t ⊆ contenders s := by
  constructor
  · rintro n ⟨i, hi, rfl⟩
    exact ⟨i, ((h i).1 hi).1, ((h i).1 hi).2.symm⟩
  · rintro n ⟨i, hi, rfl⟩
    exact ⟨i, (h i).2 hi, ((h i).1 (Player.isAdmitted_of_isContender hi)).2.symm⟩

variable [CFloat F]

/-- Every action outside of an open lobby: no slot gains a participant or a contender. -/
theorem Action.dwindles {w : Server F} {e : Event F} {s : ServerState F} (h : Action w e s)
    (hphase : w.state.phase ≠ .lobbyOpen) (i : Slot) :
    Dwindles (w.state.players i) (s.players i) := by
  cases h with
  | accept hfree => exact dwindles_setPlayer (.of_not_admitted rfl)
  | receive hconn => exact dwindles_setPlayer (.same ⟨rfl, rfl, rfl⟩)
  | pop hconn => exact dwindles_setPlayer (.same ⟨rfl, rfl, rfl⟩)
  | flush hconn => exact dwindles_setPlayer (.same ⟨rfl, rfl, rfl⟩)
  | queue hconn hline hqueue =>
    rw [Player.queueVia_eq_some hqueue]
    exact dwindles_setPlayer (.same ⟨rfl, rfl, rfl⟩)
  | refuse hqueue => exact .refl _
  | drop hconn => exact dwindles_setPlayer (.of_not_admitted rfl)
  | register hconn hnew hvalid hunused =>
    exact dwindles_setPlayer
      (.of_not_admitted (by simp [Player.isAdmitted, Player.resetProgress]))
  | choose hreg hout hchoice => exact dwindles_setPlayer (.same ⟨rfl, rfl, rfl⟩)
  | spawn hreg hout hrange hfree => exact dwindles_setPlayer (.same ⟨rfl, rfl, rfl⟩)
  | submit hrepick halive hnew hchoice => exact dwindles_setPlayer (.same ⟨rfl, rfl, rfl⟩)
  | openLobby hreg hopen hidle => exact .refl _
  | enter hopen hplayer hcount => exact absurd hopen hphase
  | cancel hopen hempty => exact .refl _
  | closeLobby hopen hcount htime => exact .refl _
  | start hlater horder => exact .enterRound _
  | finish hlater horder hwhy => exact .refl _
  | applyRepicks hrepick hall =>
    simp only [Player.applyRepick]
    split <;> exact .refl _
  | enterRepick hlater hround hresolved => exact .refl _
  | @tick dt hround =>
    obtain ⟨alive, x, y, hp⟩ := (simulateChaseTick_chased w.state dt).player i
    have halive := (simulateChaseTick_chased w.state dt).alive_of i
    rw [hp] at halive ⊢
    refine ⟨fun hq => ⟨hq, rfl⟩, fun hq => ?_⟩
    simp only [Player.isContender, Bool.and_eq_true, Bool.or_eq_true] at hq ⊢
    exact ⟨hq.1, hq.2.imp_left halive⟩
  | resolve hround => exact .refl _
  | @pair a b x y hlater hround hresolved =>
    -- The winner moves, then the loser is eliminated.
    have hmove : Dwindles (w.state.players i) ((w.state.setPlayer a
        { w.state.players a with x := x, y := y }).players i) :=
      dwindles_setPlayer (.same ⟨rfl, rfl, rfl⟩)
    exact hmove.trans (dwindles_setPlayer (.eliminated _))
  | clearRound hlater hresolved => exact .refl _
  | reset hover => exact .refl _
  | resetProgress hreg hopen => exact absurd hopen hphase

/-- Outside of an open lobby only `reset_match` opens the lobby. -/
theorem Action.stays_closed {w : Server F} {e : Event F} {s : ServerState F} (h : Action w e s)
    (hphase : w.state.phase ≠ .lobbyOpen) (he : e.isReset = false) : s.phase ≠ .lobbyOpen := by
  cases h with
  | reset hover => cases he
  | resetProgress hreg hopen => exact absurd hopen hphase
  | resolve hround => exact hphase
  | start hlater horder => exact (Action.start hlater horder).later rfl hphase
  | closeLobby hopen hcount htime => exact absurd hopen hphase
  | finish hlater horder hwhy => exact (Action.finish hlater horder hwhy).later rfl hphase
  | enterRepick hlater hround hresolved => simp
  | tick hround => exact (Action.tick hround).later rfl hphase
  | _ => exact hphase

/-- Between any two moments of a match after the closing of its lobby, in every run and
also with `resolve_round`, no identifier joins the participants or the contenders. -/
theorem match_dwindles {loopOnly : Bool} {w : Server F} (h : Reached loopOnly w)
    (pre mid post : Log F) (newer older : Entry (ServerState F) (Event F))
    (hlog : w.log = pre ++ newer :: (mid ++ older :: post))
    (hmatch : ∀ x ∈ newer :: mid, x.event.isReset = false)
    (hclosed : older.state.phase ≠ .lobbyOpen) :
    newer.state.phase ≠ .lobbyOpen ∧ participants newer.state ⊆ participants older.state ∧
      contenders newer.state ⊆ contenders older.state := by
  obtain ⟨clock, hpath⟩ := h.path
  have hlinked : Linked (fun older newer : Entry (ServerState F) (Event F) =>
      older.state.phase ≠ .lobbyOpen → newer.event.isReset = false →
        newer.state.phase ≠ .lobbyOpen ∧ participants newer.state ⊆ participants older.state ∧
          contenders newer.state ⊆ contenders older.state) w.log :=
    hpath.linked (fun _ => True) (fun _ => True) (fun _ _ _ => trivial)
      (fun _ _ _ _ _ _ _ => trivial)
      (fun v e s _ _ hstep _ _ hphase hreset => ⟨hstep.stays_closed hphase hreset,
        subset_of_dwindles (hstep.dwindles hphase)⟩)
      trivial trivial (Inv.init clock).current (List.isChain_singleton _)
  exact hlinked.between (fun s => s.phase ≠ .lobbyOpen)
    (fun s t => participants t ⊆ participants s ∧ contenders t ⊆ contenders s)
    (fun _ _ _ hab hbc => ⟨Set.Subset.trans hbc.1 hab.1, Set.Subset.trans hbc.2 hab.2⟩)
    hlog hmatch hclosed

/-- The entries of a record around its first one and a later one. -/
theorem split_first {α : Type*} {l : List α} {k : ℕ} (h : k + 1 < l.length) :
    l = [] ++ l[0] :: ((l.drop 1).take k ++ l[k + 1] :: l.drop (k + 2)) := by
  have hhead : l = l[0] :: l.drop 1 := by
    rw [← List.drop_eq_getElem_cons (by omega), List.drop_zero]
  have hlater : (l.drop 1).drop k = l[k + 1] :: l.drop (k + 2) := by
    rw [List.drop_drop, Nat.add_comm 1 k, List.drop_eq_getElem_cons h]
  rw [← hlater, List.take_append_drop, List.nil_append]
  exact hhead

/-- The record of the match of two players, from the closing of its lobby to its end. -/
theorem duel_log : ∃ h : 22 < (serverAfter (lateClock 60) duelEnded).log.length,
    (((serverAfter (lateClock 60) duelEnded).log.take 22).all fun x => !x.event.isReset) = true ∧
      ((serverAfter (lateClock 60) duelEnded).log[22]).event.isClosing = true ∧
      ((serverAfter (lateClock 60) duelEnded).log[22]).state.phase ≠ .lobbyOpen ∧
      ((serverAfter (lateClock 60) duelEnded).log.head?.map fun x => x.state.phase) =
        some .gameOver := by
  decide +kernel

/-- From the closing of the lobby to the end of the match of two players. -/
theorem match_dwindles_duel :
    ∃ newer older : Entry (ServerState Exact) (Event Exact),
      (serverAfter (lateClock 60) duelEnded).log.head? = some newer ∧
      (serverAfter (lateClock 60) duelEnded).log[22]? = some older ∧
      older.event.isClosing = true ∧ newer.state.phase = .gameOver ∧
      participants newer.state ⊆ participants older.state := by
  obtain ⟨hlength, hmatch, hclosing, hphase, hover⟩ := duel_log
  have hreached := duelEnded_reached
  have hwhole := match_dwindles hreached
  generalize (serverAfter (lateClock 60) duelEnded).log = log
    at hlength hmatch hclosing hphase hover hwhole ⊢
  obtain ⟨newer, hnewer, hphaseNewer⟩ := Option.map_eq_some_iff.mp hover
  have hhead : log[0] = newer := by
    rw [List.head?_eq_getElem?, List.getElem?_eq_getElem (by omega)] at hnewer
    exact Option.some.inj hnewer
  have hsubset := (hwhole _ _ _ _ _ (split_first hlength) ?_ hphase).2.1
  · exact ⟨newer, log[22], hnewer, List.getElem?_eq_getElem hlength, hclosing, hphaseNewer,
      hhead ▸ hsubset⟩
  intro x hx
  have hmem : x ∈ log.take 22 := by
    rcases List.mem_cons.mp hx with rfl | hx
    · exact List.mem_take_iff_getElem.mpr ⟨0, by omega, rfl⟩
    · rw [List.take_drop] at hx
      exact List.mem_of_mem_drop hx
  simpa using List.all_eq_true.mp hmatch x hmem

end BattleRoyale
