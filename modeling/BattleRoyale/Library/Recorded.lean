import Mathlib.Data.List.Chain
import Mathlib.Data.List.TakeWhile
import Mathlib.Logic.Relation

/-!
# Systems that record what they do

A recorded system carries the list of its atomic actions, newest first, each
with the state that it left. A path is a sequence of actions, all allowed by a
step relation. The rules below carry facts from one action to a whole path,
and from a path to every pair of neighbouring entries of the record.
-/

namespace Recorded

/-- One recorded action and the state after it. -/
structure Entry (S E : Type*) where
  /-- The action. -/
  event : E
  /-- The state that the action left. -/
  state : S

/-- A system with its record. The environment is fixed for a run. -/
structure System (Env S E : Type*) where
  /-- What the environment supplies and no action changes. -/
  env : Env
  /-- The current state. -/
  state : S
  /-- The record, newest entry first. -/
  log : List (Entry S E)

variable {Env S E : Type*}

/-- Perform one action. -/
def System.record (w : System Env S E) (e : E) (s : S) : System Env S E :=
  { w with state := s, log := ⟨e, s⟩ :: w.log }

@[simp] theorem System.record_state (w : System Env S E) (e : E) (s : S) :
    (w.record e s).state = s := rfl

@[simp] theorem System.record_log (w : System Env S E) (e : E) (s : S) :
    (w.record e s).log = ⟨e, s⟩ :: w.log := rfl

@[simp] theorem System.record_env (w : System Env S E) (e : E) (s : S) :
    (w.record e s).env = w.env := rfl

/-- A path of actions allowed by `Step`, with only the events of `P`. -/
inductive Path (Step : System Env S E → E → S → Prop) (P : E → Prop) :
    System Env S E → System Env S E → Prop
  | refl (w : System Env S E) : Path Step P w w
  | tail {w v : System Env S E} {e : E} {s : S} :
      Path Step P w v → P e → Step v e s → Path Step P w (v.record e s)

variable {Step : System Env S E → E → S → Prop} {P Q : E → Prop}

/-- One action is a path. -/
theorem Path.single {w : System Env S E} {e : E} {s : S} (he : P e) (h : Step w e s) :
    Path Step P w (w.record e s) := .tail (.refl w) he h

/-- Paths compose. -/
theorem Path.trans {u v w : System Env S E} (huv : Path Step P u v) (hvw : Path Step P v w) :
    Path Step P u w := by
  induction hvw with
  | refl => exact huv
  | tail _ he hs ih => exact .tail ih he hs

/-- A path stays one when more events are allowed. -/
theorem Path.mono {v w : System Env S E} (hPQ : ∀ e, P e → Q e) (h : Path Step P v w) :
    Path Step Q v w := by
  induction h with
  | refl => exact .refl _
  | tail _ he hs ih => exact .tail ih (hPQ _ he) hs

/-- A loop whose body is a path is a path. The body may rely on a fact that paths keep. -/
theorem Path.foldl {α : Type*} {f : System Env S E → α → System Env S E}
    (I : System Env S E → Prop)
    (hI : ∀ v w, Path Step P v w → I v → I w) (hf : ∀ w a, I w → Path Step P w (f w a))
    (as : List α) {w : System Env S E} (hw : I w) : Path Step P w (as.foldl f w) := by
  induction as generalizing w with
  | nil => exact .refl w
  | cons a as ih => exact (hf w a hw).trans (ih (hI _ _ (hf w a hw) hw))

/-- The environment does not change. -/
theorem Path.env_eq {v w : System Env S E} (h : Path Step P v w) : w.env = v.env := by
  induction h with
  | refl => rfl
  | tail _ _ _ ih => exact ih

/-- A path only adds entries, with allowed events. -/
theorem Path.log_eq {v w : System Env S E} (h : Path Step P v w) :
    ∃ new, w.log = new ++ v.log ∧ ∀ x ∈ new, P x.event := by
  induction h with
  | refl => exact ⟨[], rfl, by simp⟩
  | @tail _ e s _ he _ ih =>
    obtain ⟨new, hlog, hnew⟩ := ih
    refine ⟨⟨e, s⟩ :: new, by simp [hlog], ?_⟩
    intro x hx
    rcases List.mem_cons.mp hx with rfl | hx
    · exact he
    · exact hnew x hx

/-- Old entries stay in the record. -/
theorem Path.log_subset {v w : System Env S E} (h : Path Step P v w) {x : Entry S E}
    (hx : x ∈ v.log) : x ∈ w.log := by
  obtain ⟨new, hlog, _⟩ := h.log_eq
  rw [hlog]
  exact List.mem_append_right _ hx

/-- The rule of invariants: what every allowed action keeps, a path keeps. -/
theorem Path.invariant (I : System Env S E → Prop)
    (hI : ∀ w e s, P e → Step w e s → I w → I (w.record e s))
    {v w : System Env S E} (h : Path Step P v w) (hv : I v) : I w := by
  induction h with
  | refl => exact hv
  | tail _ he hs ih => exact hI _ _ _ he hs ih

/-- The rule of invariants for a property of the state alone. -/
theorem Path.state_invariant (I : S → Prop)
    (hI : ∀ (w : System Env S E) e s, P e → Step w e s → I w.state → I s)
    {v w : System Env S E} (h : Path Step P v w) (hv : I v.state) : I w.state := by
  induction h with
  | refl => exact hv
  | tail _ he hs ih => exact hI _ _ _ he hs ih

/-- The rule of invariants under an assumption on the final record, which every
earlier record inherits. -/
theorem Path.invariant_of_log (I : System Env S E → Prop) (C : List (Entry S E) → Prop)
    (hC : ∀ x log, C (x :: log) → C log)
    (hI : ∀ w e s, P e → Step w e s → C (w.record e s).log → I w → I (w.record e s))
    {v w : System Env S E} (h : Path Step P v w) (hw : C w.log) (hv : I v) : I w := by
  induction h with
  | refl => exact hv
  | tail _ he hs ih => exact hI _ _ _ he hs hw (ih (hC _ _ hw))

/-- The record starts with the current state. -/
def Current (w : System Env S E) : Prop := ∃ e rest, w.log = ⟨e, w.state⟩ :: rest

/-- Any pair of neighbouring entries, older first, is in relation. -/
def Linked (R : Entry S E → Entry S E → Prop) (log : List (Entry S E)) : Prop :=
  log.IsChain (fun newer older => R older newer)

theorem current_record (w : System Env S E) (e : E) (s : S) : Current (w.record e s) :=
  ⟨e, w.log, rfl⟩

/-- A path leaves a current record current. -/
theorem Path.current {v w : System Env S E} (h : Path Step P v w) (hv : Current v) :
    Current w := by
  cases h with
  | refl => exact hv
  | tail => exact current_record ..

/-- One more entry, in relation with the current state. -/
theorem Linked.record {R : Entry S E → Entry S E → Prop} {w : System Env S E} {e : E} {s : S}
    (h : Linked R w.log) (hc : Current w) (hR : ∀ e', R ⟨e', w.state⟩ ⟨e, s⟩) :
    Linked R (w.record e s).log := by
  obtain ⟨e', rest, hlog⟩ := hc
  unfold Linked at h ⊢
  rw [hlog] at h
  rw [System.record_log, hlog]
  exact List.isChain_cons_cons.mpr ⟨hR e', h⟩

/-- The rule of neighbours: what every allowed action satisfies against the state
before it holds between all neighbours of the record. The action may rely on an
invariant, and on an assumption on the final record that earlier ones inherit. -/
theorem Path.linked {R : Entry S E → Entry S E → Prop} (I : System Env S E → Prop)
    (C : List (Entry S E) → Prop) (hC : ∀ x log, C (x :: log) → C log)
    (hI : ∀ w e s, P e → Step w e s → C (w.record e s).log → I w → I (w.record e s))
    (hR : ∀ w e s e', P e → Step w e s → C (w.record e s).log → I w → R ⟨e', w.state⟩ ⟨e, s⟩)
    {v w : System Env S E} (h : Path Step P v w) (hw : C w.log) (hv : I v) (hc : Current v)
    (hlinked : Linked R v.log) : Linked R w.log := by
  induction h with
  | refl => exact hlinked
  | @tail u e s hvu he hs ih =>
    have hu := hC _ _ hw
    have hinv := hvu.invariant_of_log I C hC hI hu hv
    exact (ih hu).record (hvu.current hc) fun e' => hR _ _ _ e' he hs hw hinv

/-- Neighbours that step through related states, as long as no stop occurs, put any
two entries without a stop between them in relation. -/
theorem Linked.between {stop : E → Bool} (I : S → Prop) (Q : S → S → Prop)
    (htrans : ∀ a b c, Q a b → Q b c → Q a c) {log : List (Entry S E)}
    (h : Linked (fun older newer => I older.state → stop newer.event = false →
      I newer.state ∧ Q older.state newer.state) log)
    {pre mid post : List (Entry S E)} {newer older : Entry S E}
    (hlog : log = pre ++ newer :: (mid ++ older :: post))
    (hstop : ∀ x ∈ newer :: mid, stop x.event = false) (hold : I older.state) :
    I newer.state ∧ Q older.state newer.state := by
  induction mid generalizing pre newer with
  | nil =>
    subst hlog
    have hpair := (List.isChain_append.mp h).2.1
    exact (List.isChain_cons_cons.mp hpair).1 hold (hstop newer List.mem_cons_self)
  | cons next mid ih =>
    have hlog' : log = (pre ++ [newer]) ++ next :: (mid ++ older :: post) := by simp [hlog]
    obtain ⟨hnext, hnextQ⟩ := ih hlog' fun x hx => hstop x (List.mem_cons_of_mem _ hx)
    subst hlog
    have hpair := (List.isChain_append.mp h).2.1
    obtain ⟨hnewer, hnewerQ⟩ :=
      (List.isChain_cons_cons.mp hpair).1 hnext (hstop newer List.mem_cons_self)
    exact ⟨hnewer, htrans _ _ _ hnextQ hnewerQ⟩

/-- The rule of prefixes: a consequence of an invariant holds at every moment of
the record. -/
theorem Path.throughout {Q : List (Entry S E) → Prop} (I : System Env S E → Prop)
    (C : List (Entry S E) → Prop) (hC : ∀ x log, C (x :: log) → C log)
    (hI : ∀ w e s, P e → Step w e s → C (w.record e s).log → I w → I (w.record e s))
    (hQ : ∀ w, I w → Q w.log) {v w : System Env S E} (h : Path Step P v w) (hw : C w.log)
    (hv : I v) (hold : ∀ past, past <:+ v.log → Q past) : ∀ past, past <:+ w.log → Q past := by
  induction h with
  | refl => exact hold
  | @tail u e s hvu he hs ih =>
    intro past hpast
    rcases List.suffix_cons_iff.mp hpast with rfl | hpast
    · exact hQ _ ((hvu.tail he hs).invariant_of_log I C hC hI hw hv)
    · exact ih (hC _ _ hw) past hpast

/-- The entries newer than the last one that `stop` marks. -/
def since (stop : E → Bool) (log : List (Entry S E)) : List (Entry S E) :=
  log.takeWhile (fun x => !stop x.event)

theorem since_cons_stop {stop : E → Bool} {x : Entry S E} {log : List (Entry S E)}
    (h : stop x.event = true) : since stop (x :: log) = [] := by
  simp [since, h]

theorem since_cons {stop : E → Bool} {x : Entry S E} {log : List (Entry S E)}
    (h : stop x.event = false) : since stop (x :: log) = x :: since stop log := by
  simp [since, h]

/-- Entries without a stop lengthen the period. -/
theorem since_append {stop : E → Bool} {new old : List (Entry S E)}
    (h : ∀ x ∈ new, stop x.event = false) : since stop (new ++ old) = new ++ since stop old := by
  induction new with
  | nil => rfl
  | cons x new ih =>
    rw [List.cons_append, since_cons (h x List.mem_cons_self),
      ih fun y hy => h y (List.mem_cons_of_mem _ hy)]
    rfl

/-- How many entries newer than the last stop satisfy a test. -/
def countSince (stop test : E → Bool) (log : List (Entry S E)) : ℕ :=
  (since stop log).countP (fun x => test x.event)

theorem countSince_cons_stop {stop test : E → Bool} {x : Entry S E} {log : List (Entry S E)}
    (h : stop x.event = true) : countSince stop test (x :: log) = 0 := by
  simp [countSince, since_cons_stop h]

theorem countSince_cons {stop test : E → Bool} {x : Entry S E} {log : List (Entry S E)}
    (h : stop x.event = false) :
    countSince stop test (x :: log) =
      countSince stop test log + if test x.event then 1 else 0 := by
  simp [countSince, since_cons h, List.countP_cons]

/-- The answer of the newest entry that has one, among those newer than the last stop. -/
def latest {α : Type*} (stop : E → Bool) (part : E → Option α) (log : List (Entry S E)) :
    Option α :=
  (since stop log).findSome? fun x => part x.event

theorem latest_cons_stop {α : Type*} {stop : E → Bool} {part : E → Option α} {x : Entry S E}
    {log : List (Entry S E)} (h : stop x.event = true) : latest stop part (x :: log) = none := by
  unfold latest
  rw [since_cons_stop h, List.findSome?_nil]

theorem latest_cons {α : Type*} {stop : E → Bool} {part : E → Option α} {x : Entry S E}
    {log : List (Entry S E)} (h : stop x.event = false) :
    latest stop part (x :: log) = (part x.event).or (latest stop part log) := by
  unfold latest
  rw [since_cons h, List.findSome?_cons]
  cases part x.event <;> rfl

/-- Newer entries that know one answer, and one of them gives it. -/
theorem latest_append {α : Type*} {stop : E → Bool} {part : E → Option α} {a : α}
    {new old : List (Entry S E)} (hstop : ∀ x ∈ new, stop x.event = false)
    (hpart : ∀ x ∈ new, part x.event = none ∨ part x.event = some a)
    (hsome : ∃ x ∈ new, part x.event ≠ none) : latest stop part (new ++ old) = some a := by
  unfold latest
  rw [since_append hstop, List.findSome?_append]
  cases hfind : new.findSome? (fun x => part x.event) with
  | none =>
    obtain ⟨x, hx, hne⟩ := hsome
    exact absurd (List.findSome?_eq_none_iff.mp hfind x hx) hne
  | some b =>
    obtain ⟨x, hx, hb⟩ := List.exists_of_findSome?_eq_some hfind
    rcases hpart x hx with hnone | ha
    · rw [hnone] at hb
      cases hb
    · rw [Option.some_or, ← hb, ha]

/-- What the entries contribute to a sequence, oldest entry first. -/
def gather {α : Type*} (part : Entry S E → List α) : List (Entry S E) → List α
  | [] => []
  | x :: log => gather part log ++ part x

theorem gather_cons {α : Type*} (part : Entry S E → List α) (x : Entry S E)
    (log : List (Entry S E)) : gather part (x :: log) = gather part log ++ part x := rfl

/-- Newer entries contribute after older ones. -/
theorem gather_append {α : Type*} (part : Entry S E → List α) (new old : List (Entry S E)) :
    gather part (new ++ old) = gather part old ++ gather part new := by
  induction new with
  | nil => exact (List.append_nil _).symm
  | cons x new ih => rw [List.cons_append, gather_cons, ih, gather_cons, List.append_assoc]

/-- Entries that contribute nothing. -/
theorem gather_eq_nil {α : Type*} {part : Entry S E → List α} {log : List (Entry S E)}
    (h : ∀ x ∈ log, part x = []) : gather part log = [] := by
  induction log with
  | nil => rfl
  | cons x log ih =>
    rw [gather_cons, h x List.mem_cons_self, List.append_nil]
    exact ih fun y hy => h y (List.mem_cons_of_mem _ hy)

end Recorded
