import BattleRoyale.Binary32
import BattleRoyale.LineSources

/-!
# The length of the lines

`queue_broadcast` cuts a formatted line at 255 bytes, `queue_line_checked` refuses one of 256
bytes, and `queue_line` one of 254. No line of the server is that long, so none is cut, and
one is refused only when the send buffer has no room.
-/

namespace BattleRoyale

open Recorded

section Numbers

/-- A number of so many digits, with a sign perhaps. -/
theorem decimal_length {n : ℤ} {digits : ℕ} (hdigits : 0 < digits)
    (h : n.natAbs < 10 ^ digits) : (decimal n).length ≤ digits + 1 := by
  have hlen := (Nat.length_toDigits_le_iff (by omega) hdigits).mpr h
  unfold decimal
  split
  · rw [List.length_cons]
    omega
  · omega

/-- A number without a sign. -/
theorem decimal_length_nat {n digits : ℕ} (hdigits : 0 < digits) (h : n < 10 ^ digits) :
    (decimal n).length ≤ digits := by
  unfold decimal
  rw [if_neg (by omega), Int.natAbs_natCast]
  exact (Nat.length_toDigits_le_iff (by omega) hdigits).mpr h

/-- The values of an `int` have at most eleven characters. -/
theorem decimal_toInt32_length (n : ℤ) : (decimal (toInt32 n)).length ≤ 11 := by
  have hlow := Int.le_bmod (x := n) (m := 2 ^ 32) (by omega)
  have hhigh := Int.bmod_lt (x := n) (m := 2 ^ 32) (by omega)
  refine decimal_length (by omega) ?_
  unfold toInt32
  omega

theorem Exact.roundNat_neg (q : ℚ) : Exact.roundNat (-q) = Exact.roundNat q := by
  unfold Exact.roundNat
  rw [Rat.num_neg_eq_neg_num, Rat.den_neg_eq_den, Int.natAbs_neg]

/-- A coordinate of the board, or the mark of a player without a place. -/
def Binary32.OnBoard (x : Binary32) : Prop := ∃ q : ℚ, x = .finite q ∧ -1 ≤ q ∧ q < 10

/-- Such a coordinate is written with at most four characters and the decimals. -/
theorem Binary32.OnBoard.fixed_length {x : Binary32} (h : x.OnBoard) {digits : ℕ}
    (hdigits : 0 < digits) : (CFloat.fixed digits x).length ≤ digits + 4 := by
  obtain ⟨q, rfl, hlow, hhigh⟩ := h
  have hround : Exact.roundNat (q * 10 ^ digits) ≤ 10 * 10 ^ digits := by
    have hpow : (0 : ℚ) < 10 ^ digits := by positivity
    rcases le_or_gt 0 q with hq | hq
    · refine Exact.roundNat_le (by positivity) ?_
      push_cast
      exact mul_lt_mul_of_pos_right hhigh hpow
    · rw [← Exact.roundNat_neg, ← neg_mul]
      refine Exact.roundNat_le (mul_nonneg (by linarith) hpow.le) ?_
      push_cast
      exact mul_lt_mul_of_pos_right (by linarith) hpow
  show (Exact.fixed digits ⟨q⟩).length ≤ digits + 4
  unfold Exact.fixed
  generalize Exact.roundNat (q * 10 ^ digits) = n at hround
  have hpow : 0 < 10 ^ digits := by positivity
  have hwhole : (Nat.toDigits 10 (n / 10 ^ digits)).length ≤ 2 := by
    refine (Nat.length_toDigits_le_iff (by omega) (by omega)).mpr ?_
    have hdiv : n / 10 ^ digits ≤ 10 := Nat.div_le_of_le_mul (by rwa [mul_comm])
    omega
  have hrest := Exact.padded_length hdigits (Nat.mod_lt n hpow)
  simp only [List.length_append, List.length_cons, hrest]
  split
  · simp only [List.length_singleton]
    omega
  · simp only [List.length_nil]
    omega

end Numbers

/-- The values of the state fit into their C types, and the players are on the board. -/
structure FitsInt (s : ServerState Binary32) : Prop where
  /-- The ids. -/
  ids : ∀ k, (s.players k).id < 2 ^ 31
  /-- The number of the round. -/
  round : s.roundNo < 2 ^ 31
  /-- The coordinates. -/
  places : ∀ k, (s.players k).x.OnBoard ∧ (s.players k).y.OnBoard

/-- A refusal is short. -/
theorem ErrorReason.text_length (reason : ErrorReason) :
    ("ERROR ".toList ++ reason.text).length ≤ 30 := by
  cases reason <;> decide

/-- The lengths of the lines. -/
theorem Sourced.length {env : ℕ → ℤ} (henv : ∀ n, -2 ^ 63 ≤ env n ∧ env n < 2 ^ 63)
    {s : ServerState Binary32} (hs : FitsInt s) {line : ServerLine Binary32}
    (h : Sourced env s line) : line.text.length ≤ MAX_LINE - 3 := by
  have hplace : ∀ x y, (∃ k, x = (s.players k).x ∧ y = (s.players k).y) →
      (CFloat.fixed 3 x).length ≤ 7 ∧ (CFloat.fixed 3 y).length ≤ 7 := by
    rintro x y ⟨k, rfl, rfl⟩
    exact ⟨(hs.places k).1.fixed_length (by omega), (hs.places k).2.fixed_length (by omega)⟩
  have hflag : ∀ b, (flag b).length = 1 := by
    intro b
    cases b <;> rfl
  show line.text.length ≤ 253
  rcases h with ⟨reason, rfl⟩ | h
  · exact reason.text_length.trans (by omega)
  cases line with
  | error reason => exact reason.text_length.trans (by omega)
  | welcome id =>
    obtain ⟨k, rfl⟩ := h
    have hid := decimal_length_nat (by omega)
      (show (s.players k).id < 10 ^ 10 from (hs.ids k).trans (by norm_num))
    have htext : (.welcome (s.players k).id : ServerLine Binary32).text =
      "WELCOME ".toList ++ decimal (s.players k).id := rfl
    have hword : "WELCOME ".toList.length = 8 := rfl
    rw [htext]
    simp only [List.length_append, hword]
    omega
  | chooseSpawn width height =>
    obtain ⟨rfl, rfl⟩ := h
    decide +kernel
  | lobbyOpen seconds =>
    obtain ⟨hnonneg, m, n, hle⟩ := h
    have hm := henv m
    have hn := henv n
    have hwindow : JOIN_WINDOW_SECONDS = 60 := rfl
    have hbound : seconds.natAbs < 10 ^ 20 := by omega
    have hseconds := decimal_length (by omega) hbound
    have htext : (.lobbyOpen seconds : ServerLine Binary32).text =
      "LOBBY_OPEN ".toList ++ decimal seconds := rfl
    have hword : "LOBBY_OPEN ".toList.length = 11 := rfl
    rw [htext]
    simp only [List.length_append, hword]
    omega
  | setupOpen seconds =>
    obtain ⟨n, rfl⟩ := h
    have hseconds := decimal_toInt32_length n
    have htext : (.setupOpen (toInt32 n) : ServerLine Binary32).text =
      "SETUP_OPEN ".toList ++ decimal (toInt32 n) := rfl
    have hword : "SETUP_OPEN ".toList.length = 11 := rfl
    rw [htext]
    simp only [List.length_append, hword]
    omega
  | choiceOk choice =>
    have htext : (.choiceOk choice : ServerLine Binary32).text =
      "CHOICE_OK ".toList ++ [choice] := rfl
    have hword : "CHOICE_OK ".toList.length = 10 := rfl
    rw [htext]
    simp only [List.length_append, List.length_cons, List.length_nil, hword]
    omega
  | spawnOk x y =>
    obtain ⟨k, rfl, rfl⟩ := h
    have hx := (hs.places k).1.fixed_length (show 0 < 1 by omega)
    have hy := (hs.places k).2.fixed_length (show 0 < 1 by omega)
    have htext : (.spawnOk (s.players k).x (s.players k).y : ServerLine Binary32).text =
      "SPAWN_OK ".toList ++
      CFloat.fixed 1 (s.players k).x ++ [' '] ++ CFloat.fixed 1 (s.players k).y := rfl
    have hword : "SPAWN_OK ".toList.length = 9 := rfl
    rw [htext]
    simp only [List.length_append, List.length_cons, List.length_nil, hword]
    omega
  | repickOk choice =>
    have htext : (.repickOk choice : ServerLine Binary32).text =
      "REPICK_OK ".toList ++ [choice] := rfl
    have hword : "REPICK_OK ".toList.length = 10 := rfl
    rw [htext]
    simp only [List.length_append, List.length_cons, List.length_nil, hword]
    omega
  | joined name =>
    have hname : name.length < 32 := h
    have htext : (.joined name : ServerLine Binary32).text =
      "JOINED ".toList ++ name := rfl
    have hword : "JOINED ".toList.length = 7 := rfl
    rw [htext]
    simp only [List.length_append, hword]
    omega
  | left name =>
    have hname : name.length < 32 := h
    have htext : (.left name : ServerLine Binary32).text =
      "LEFT ".toList ++ name := rfl
    have hword : "LEFT ".toList.length = 5 := rfl
    rw [htext]
    simp only [List.length_append, hword]
    omega
  | bye name =>
    have hname : name.length < 32 := h
    have htext : (.bye name : ServerLine Binary32).text =
      "BYE ".toList ++ name := rfl
    have hword : "BYE ".toList.length = 4 := rfl
    rw [htext]
    simp only [List.length_append, hword]
    omega
  | player name choice x y alive waiting =>
    obtain ⟨hname, hxy⟩ := h
    obtain ⟨hx, hy⟩ := hplace x y hxy
    have hname' : name.length < 32 := hname
    have htext : (.player name choice x y alive waiting : ServerLine Binary32).text =
      "PLAYER ".toList ++ name ++
      [' ', choice, ' '] ++ CFloat.fixed 3 x ++ [' '] ++ CFloat.fixed 3 y ++ [' '] ++
      flag alive ++ [' '] ++ flag waiting := rfl
    have hword : "PLAYER ".toList.length = 7 := rfl
    rw [htext]
    simp only [List.length_append, List.length_cons, List.length_nil, hflag,
      hword]
    omega
  | roundStart roundNo seconds =>
    obtain ⟨rfl, n, rfl⟩ := h
    have hseconds := decimal_toInt32_length n
    have hround := decimal_length_nat (by omega)
      (show s.roundNo < 10 ^ 10 from hs.round.trans (by norm_num))
    have htext : (.roundStart s.roundNo (toInt32 n) : ServerLine Binary32).text =
      "ROUND_START ".toList ++
      decimal s.roundNo ++ [' '] ++ decimal (toInt32 n) := rfl
    have hword : "ROUND_START ".toList.length = 12 := rfl
    rw [htext]
    simp only [List.length_append, List.length_cons, List.length_nil, hword]
    omega
  | pairWinner a b choiceA choiceB winner x y =>
    obtain ⟨⟨ha, hb, hwinner⟩, hxy⟩ := h
    obtain ⟨hx, hy⟩ := hplace x y hxy
    have hnames : a.length < 32 ∧ b.length < 32 ∧ winner.length < 32 := ⟨ha, hb, hwinner⟩
    have htext : (.pairWinner a b choiceA choiceB winner x y : ServerLine Binary32).text =
      "PAIR ".toList ++ a ++ [' '] ++ b ++
      [' ', choiceA, ' ', choiceB] ++ " WINNER ".toList ++ winner ++ " MOVE ".toList ++
      CFloat.fixed 3 x ++ [' '] ++ CFloat.fixed 3 y := rfl
    have hword₁ : "PAIR ".toList.length = 5 := rfl
    have hword₂ : " WINNER ".toList.length = 8 := rfl
    have hword₃ : " MOVE ".toList.length = 6 := rfl
    rw [htext]
    simp only [List.length_append, List.length_cons, List.length_nil,
      hword₁, hword₂, hword₃]
    omega
  | pairTie a b choiceA choiceB =>
    have hnames : a.length < 32 ∧ b.length < 32 := h
    have htext : (.pairTie a b choiceA choiceB : ServerLine Binary32).text =
      "PAIR ".toList ++ a ++ [' '] ++ b ++
      [' ', choiceA, ' ', choiceB] ++ " TIE".toList := rfl
    have hword₁ : "PAIR ".toList.length = 5 := rfl
    have hword₂ : " TIE".toList.length = 4 := rfl
    rw [htext]
    simp only [List.length_append, List.length_cons, List.length_nil,
      hword₁, hword₂]
    omega
  | gameOver verdict =>
    cases verdict <;> decide
  | _ => decide

/-- A refused line of this length only lacked room. -/
theorem Player.queueVia_eq_none {F : Type} [CFloat F] {p : Player F} {via : Via}
    {line : ServerLine F} (hlength : line.text.length ≤ MAX_LINE - 3)
    (h : p.queueVia via line = none) :
    OUTBUF_SIZE < p.outbuf.length + ((via.sent line).length + 1) := by
  have hlength' : line.text.length ≤ 253 := hlength
  have hroom : ∀ text : List Char, text.length ≤ 253 → p.queueLine text = none →
      OUTBUF_SIZE < p.outbuf.length + (text.length + 1) := by
    intro text htext hnone
    unfold Player.queueLine at hnone
    split at hnone
    · rename_i hlong
      simp only [MAX_LINE] at hlong
      omega
    · split at hnone
      · rename_i hfull
        exact hfull
      · cases hnone
  have hcut : ∀ text : List Char, (cString text).length ≤ text.length := fun text =>
    (List.takeWhile_sublist _).length_le
  have hchecked : p.queueLineChecked line.text = none →
      OUTBUF_SIZE < p.outbuf.length + ((cString line.text).length + 1) := by
    intro hnone
    unfold Player.queueLineChecked at hnone
    rw [if_neg (by simp only [MAX_LINE]; omega)] at hnone
    exact hroom _ ((hcut _).trans hlength') hnone
  cases via with
  | line => exact hroom _ hlength' h
  | checked => exact hchecked h
  | verdict => exact hchecked h
  | broadcast =>
    refine hroom _ ((hcut _).trans ?_) h
    exact (List.length_take_le' _ _).trans hlength'

/-- In every run every line that is formatted has at most `MAX_LINE - 3` bytes, so that none
is cut, and one that was refused lacked room in the send buffer. -/
theorem lines_fit {loopOnly : Bool} {w : Server Binary32} (h : Reached loopOnly w)
    (hclock : ∀ n, -2 ^ 63 ≤ w.env n ∧ w.env n < 2 ^ 63) :
    ∀ x ∈ w.log, FitsInt x.state → ∀ i via line,
      (x.event = .queued i via line ∨ x.event = .refused i via line) →
      line.text.length ≤ MAX_LINE - 3 ∧ line.text.take (MAX_LINE - 1) = line.text ∧
        (x.event = .refused i via line →
          OUTBUF_SIZE < (x.state.players i).outbuf.length + ((via.sent line).length + 1)) := by
  rintro x hx hfits i via line hline
  obtain ⟨hsourced, hnone⟩ := h.lines_sourced.2 x hx i via line hline
  have hlength := hsourced.length hclock hfits
  refine ⟨hlength, List.take_of_length_le ?_, fun hrefused => ?_⟩
  · simp only [MAX_LINE] at hlength ⊢
    omega
  · exact Player.queueVia_eq_none hlength (hnone hrefused)

/-- Whether a number is one of the board. -/
def Binary32.isOnBoard : Binary32 → Bool
  | .finite q => decide (-1 ≤ q ∧ q < 10)
  | _ => false

theorem Binary32.onBoard_of_isOnBoard {z : Binary32} (h : z.isOnBoard = true) : z.OnBoard := by
  cases z with
  | finite q =>
    obtain ⟨hlow, hhigh⟩ := of_decide_eq_true h
    exact ⟨q, rfl, by linarith, by linarith⟩
  | _ => cases h

/-- A player with a long name joins off the grid points and asks for the state. -/
def longNameSteps : List Step :=
  join 0 3 "Abcdefghijklmnopqrstuvwxyz01234" "R" "9.9 0.1" ++ say 0 "GET_STATE"

/-- The server after that. -/
def longName : Loop Binary32 := (Loop.init (fun _ => 1) 0).run longNameSteps

theorem longName_env (n : ℕ) : longName.server.env n = 1 :=
  congrFun (Loop.run_env (Inv.init fun _ => 1) longNameSteps).2 n

/-- The text of a line that was queued. -/
def Event.queuedText {F : Type} [CFloat F] : Event F → Option (List Char)
  | .queued _ _ line => some line.text
  | _ => none

/-- The line about this player, and numbers that fit into their types. -/
theorem longName_log : ∃ x ∈ longName.server.log,
    x.event.queuedText = some "PLAYER Abcdefghijklmnopqrstuvwxyz01234 R 9.900 0.100 0 1".toList ∧
      (∀ k, (x.state.players k).id < 2 ^ 31) ∧ x.state.roundNo < 2 ^ 31 ∧
      ∀ k, (x.state.players k).x.isOnBoard = true ∧ (x.state.players k).y.isOnBoard = true := by
  decide +kernel

/-- It is not cut. -/
theorem lines_fit_player : ∃ x ∈ longName.server.log, ∃ i via line,
    x.event = .queued i via line ∧
      line.text = "PLAYER Abcdefghijklmnopqrstuvwxyz01234 R 9.900 0.100 0 1".toList ∧
      line.text.length ≤ MAX_LINE - 3 ∧ line.text.take (MAX_LINE - 1) = line.text := by
  obtain ⟨x, hx, htext, hids, hround, hplaces⟩ := longName_log
  have hreached : Reached true longName.server :=
    ⟨fun _ => 1, 0, longNameSteps, fun _ => List.all_eq_true.mp (by decide), rfl⟩
  have hfits : FitsInt x.state := ⟨hids, hround, fun k =>
    ⟨Binary32.onBoard_of_isOnBoard (hplaces k).1, Binary32.onBoard_of_isOnBoard (hplaces k).2⟩⟩
  have hfit := lines_fit hreached (fun n => by rw [longName_env]; omega) x hx hfits
  cases hevent : x.event with
  | queued i via line =>
    obtain ⟨hlength, hwhole, _⟩ := hfit i via line (.inl hevent)
    rw [hevent] at htext
    exact ⟨x, hx, i, via, line, hevent, Option.some.inj htext, hlength, hwhole⟩
  | _ =>
    rw [hevent] at htext
    cases htext

end BattleRoyale
