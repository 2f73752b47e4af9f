import Mathlib.Logic.Relation
import VersionedTypes.Proofs.Resolution.Event

/-!
# The resolution as a machine

A resolution does one thing at a time. What it has left to do is its agenda, and every step takes
one item off the agenda or turns to the next stage: it reads the declarations, applies permutations
in rounds, strands those that wait in vain, and answers the requests.

* `Agenda`, `Config`, `Step`, `Reachable`: the machine and the configurations it comes through;
* `Step.unique`, `Reachable.leads`: there is one run;
* `Config.Poised`, `Reachable.event`: every step is an event or changes nothing;
* `rounds`, `settle_eq_rounds`: the rounds apart from what follows them;
* **`exists_reachable`**: every declaration list is resolved, and the run ends with its resolution;
* `Reachable.invariant`: what every event keeps holds throughout;
* **`Reachable.exists_origin`**: every record was written by a step of the run.
-/

namespace VersionedTypes

namespace Resolution

open Relation

/-- What a resolution has left to do. -/
inductive Agenda where
  /-- Declarations to be read. -/
  | reading (rest : List Declaration)
  /-- The rest of a round, and the permutations that wait for the next one. -/
  | applying (ready waiting : List Permutation)
  /-- Permutations that wait in vain, with the links among all of them. -/
  | stranding (links : OrderedMap String) (rest : List Permutation)
  /-- Requests for transforms. -/
  | answering (rest : List TransformRequest)

/-- A state of the resolution with what is left to do. -/
structure Config where
  agenda : Agenda
  state : Resolution

/-- One step in the resolution of `ds`. -/
inductive Step (ds : List Declaration) : Config → Config → Prop
  | declare (c : Declaration) (cs : List Declaration) (s : Resolution) :
    Step ds ⟨.reading (c :: cs), s⟩ ⟨.reading cs, s.declare c⟩
  | start (s : Resolution) :
    Step ds ⟨.reading [], s⟩ ⟨.applying [] (Declaration.permutations ds), s⟩
  | derive {p : Permutation} {ps ws : List Permutation} {s s' : Resolution}
      (h : s.derive p = .ok s') :
    Step ds ⟨.applying (p :: ps) ws, s⟩ ⟨.applying ps ws, s'⟩
  | round {ws : List Permutation} {s : Resolution} (h : (s.ready ws).isEmpty = false) :
    Step ds ⟨.applying [] ws, s⟩ ⟨.applying (s.ready ws) (s.waiting ws), s⟩
  | stuck {ws : List Permutation} {s : Resolution} (h : (s.ready ws).isEmpty = true) :
    Step ds ⟨.applying [] ws, s⟩ ⟨.stranding (links ws) ws, s⟩
  | strand (l : OrderedMap String) (p : Permutation) (ps : List Permutation) (s : Resolution) :
    Step ds ⟨.stranding l (p :: ps), s⟩ ⟨.stranding l ps, strandOne l s p⟩
  | finish (l : OrderedMap String) (s : Resolution) :
    Step ds ⟨.stranding l [], s⟩ ⟨.answering (Declaration.requests ds), s⟩
  | answer (r : TransformRequest) (rs : List TransformRequest) (s : Resolution) :
    Step ds ⟨.answering (r :: rs), s⟩ ⟨.answering rs, s.answer r⟩

/-- The steps of a run. -/
abbrev Leads (ds : List Declaration) : Config → Config → Prop := ReflTransGen (Step ds)

/-- The configurations that the resolution of `ds` comes through. -/
def Reachable (ds : List Declaration) : Config → Prop := Leads ds ⟨.reading ds, {}⟩

variable {ds : List Declaration} {k k' : Config} {s s' : Resolution} {c : Declaration} {o : Outcome}

/-! ## There is one run -/

theorem Step.unique {k₁ k₂ : Config} (h₁ : Step ds k k₁) (h₂ : Step ds k k₂) : k₁ = k₂ := by
  cases h₁ with
  | derive h =>
    cases h₂ with
    | derive h' => cases h.symm.trans h'; rfl
  | round h =>
    cases h₂ with
    | round => rfl
    | stuck h' => rw [h] at h'; cases h'
  | stuck h =>
    cases h₂ with
    | round h' => rw [h] at h'; cases h'
    | stuck => rfl
  | _ => cases h₂; rfl

theorem eq_of_leads_answered (h : Leads ds ⟨.answering [], s⟩ k) : k = ⟨.answering [], s⟩ := by
  rcases ReflTransGen.cases_head h with e | ⟨k', hk, -⟩
  · exact e.symm
  · cases hk

theorem Reachable.leads (h : Reachable ds k) (hs : Reachable ds ⟨.answering [], s⟩) :
    Leads ds k ⟨.answering [], s⟩ := by
  have hu : Relator.RightUnique (Step ds) := fun _ _ _ => Step.unique
  rcases ReflTransGen.total_of_right_unique hu h hs with h | h
  · exact h
  · rw [eq_of_leads_answered h]

/-! ## Steps are events -/

/-- A permutation is applied only when the fate of its base is known, and stranded only when its
base is not published. -/
def Config.Poised : Config → Prop
  | ⟨.applying ready _, s⟩ => ∀ p ∈ ready, s.isSettled p.base = true
  | ⟨.stranding _ rest, s⟩ => ∀ p ∈ rest, s.domains.get? p.base = none
  | _ => True

/-- The stage of what is left to do. -/
def Config.stage : Config → Nat
  | ⟨.reading _, _⟩ => 0
  | ⟨.applying _ _, _⟩ => 1
  | ⟨.stranding _ _, _⟩ => 2
  | ⟨.answering _, _⟩ => 3

theorem Step.stage_le (h : Step ds k k') : k.stage ≤ k'.stage := by
  cases h <;> simp [Config.stage]

theorem Step.event (hk : k.Poised) (h : Step ds k k') :
    k'.state = k.state ∨ ∃ c o, o.stage = k.stage ∧ Event k.state c o k'.state := by
  cases h with
  | declare c cs s => exact Or.inr ⟨_, declare_event s c⟩
  | derive h => exact Or.inr ⟨_, derive_event (hk _ List.mem_cons_self) h⟩
  | strand l p ps s => exact Or.inr ⟨_, strandOne_event l (hk p List.mem_cons_self)⟩
  | answer r rs s => exact Or.inr ⟨_, answer_event s r⟩
  | _ => exact Or.inl rfl

theorem ready_isEmpty_iff {ws : List Permutation} :
    (s.ready ws).isEmpty = true ↔ ∀ p ∈ ws, s.isSettled p.base = false := by
  simp [ready]

theorem strandOne_domains (l : OrderedMap String) (s : Resolution) (p : Permutation) :
    (strandOne l s p).domains = s.domains := rfl

theorem Step.poised (hk : k.Poised) (h : Step ds k k') : k'.Poised := by
  cases h with
  | declare => trivial
  | start => exact fun p hp => absurd hp List.not_mem_nil
  | derive h =>
    obtain ⟨o, -, he⟩ := derive_event (hk _ List.mem_cons_self) h
    exact fun q hq => he.grows.isSettled (hk q (List.mem_cons_of_mem _ hq))
  | round h => exact fun p hp => (List.mem_filter.mp hp).2
  | stuck h =>
    intro p hp
    exact isPublished_eq_false_iff.mp (isSettled_eq_false_iff.mp (ready_isEmpty_iff.mp h p hp)).1
  | strand l p ps s =>
    exact fun q hq => (strandOne_domains l s p).symm ▸ hk q (List.mem_cons_of_mem _ hq)
  | finish => trivial
  | answer => trivial

theorem Reachable.poised (h : Reachable ds k) : k.Poised := by
  induction h with
  | refl => trivial
  | tail _ hstep ih => exact hstep.poised ih

theorem Reachable.event (hk : Reachable ds k) (h : Step ds k k') :
    k'.state = k.state ∨ ∃ c o, o.stage = k.stage ∧ Event k.state c o k'.state :=
  h.event hk.poised

/-! ## Every declaration list is resolved -/

theorem leads_reading (cs : List Declaration) (s : Resolution) :
    Leads ds ⟨.reading cs, s⟩ ⟨.reading [], cs.foldl declare s⟩ := by
  induction cs generalizing s with
  | nil => exact .refl
  | cons c cs ih => exact .head (.declare c cs s) (ih (s.declare c))

theorem sound_foldl_declare (cs : List Declaration) (hs : s.Sound) :
    (cs.foldl declare s).Sound := by
  induction cs generalizing s with
  | nil => exact hs
  | cons c cs ih =>
    obtain ⟨o, -, he⟩ := declare_event s c
    exact ih (he.sound hs)

theorem leads_applying (ds : List Declaration) {ps : List Permutation} (ws : List Permutation)
    (hs : s.Sound)
    (hp : ∀ p ∈ ps, s.isSettled p.base = true) :
    ∃ s', ps.foldlM derive s = .ok s' ∧ s'.Sound ∧
      Leads ds ⟨.applying ps ws, s⟩ ⟨.applying [] ws, s'⟩ := by
  induction ps generalizing s with
  | nil => exact ⟨s, rfl, hs, .refl⟩
  | cons p ps ih =>
    obtain ⟨s₁, h₁⟩ := hs.exists_derive p
    obtain ⟨o, -, he⟩ := derive_event (hp p List.mem_cons_self) h₁
    obtain ⟨s', h', hs', hl⟩ := ih (he.sound hs) fun q hq =>
      he.grows.isSettled (hp q (List.mem_cons_of_mem _ hq))
    refine ⟨s', ?_, hs', .head (.derive h₁) hl⟩
    rw [List.foldlM_cons, h₁]
    exact h'

theorem leads_stranding (l : OrderedMap String) (ps : List Permutation) (s : Resolution) :
    Leads ds ⟨.stranding l ps, s⟩ ⟨.stranding l [], ps.foldl (strandOne l) s⟩ := by
  induction ps generalizing s with
  | nil => exact .refl
  | cons p ps ih => exact .head (.strand l p ps s) (ih (strandOne l s p))

/-- The rounds alone: the state in which no permutation is ready any more, and the permutations that
wait in it. -/
def rounds (s : Resolution) (pending : List Permutation) :
    Except Fault (Resolution × List Permutation) :=
  if _h : (s.ready pending).isEmpty = false then
    match (s.ready pending).foldlM derive s with
    | .ok s' => s'.rounds (s.waiting pending)
    | .error f => .error f
  else .ok (s, pending)
termination_by pending.length
decreasing_by exact length_waiting_lt _h

/-- To settle permutations is to go through the rounds, and then to strand those that wait. -/
theorem settle_eq_rounds (s : Resolution) (pending : List Permutation) :
    s.settle pending = (s.rounds pending).map fun r => r.1.strand r.2 := by
  induction hn : pending.length using Nat.strongRecOn generalizing s pending with
  | _ n ih =>
    subst hn
    unfold settle rounds
    split
    · next h =>
      cases (s.ready pending).foldlM derive s with
      | error f => rfl
      | ok s' => exact ih _ (length_waiting_lt h) s' (s.waiting pending) rfl
    · rfl

theorem leads_rounds (ds : List Declaration) (s : Resolution) (pending : List Permutation)
    (hs : s.Sound) :
    ∃ s' ws, s.rounds pending = .ok (s', ws) ∧ (s'.ready ws).isEmpty = true ∧
      Leads ds ⟨.applying [] pending, s⟩ ⟨.applying [] ws, s'⟩ := by
  induction hn : pending.length using Nat.strongRecOn generalizing s pending with
  | _ n ih =>
    subst hn
    unfold rounds
    split
    · next h =>
      have hp : ∀ p ∈ s.ready pending, s.isSettled p.base = true :=
        fun p hp => (List.mem_filter.mp hp).2
      obtain ⟨s₁, h₁, hs₁, hl₁⟩ := leads_applying ds (s.waiting pending) hs hp
      obtain ⟨s', ws, h', hw, hl'⟩ := ih _ (length_waiting_lt h) s₁ (s.waiting pending) hs₁ rfl
      refine ⟨s', ws, ?_, hw, .head (.round h) (hl₁.trans hl')⟩
      rw [h₁]
      exact h'
    · next h => exact ⟨s, pending, rfl, by simpa using h, .refl⟩

theorem leads_settle (ds : List Declaration) (s : Resolution) (pending : List Permutation)
    (hs : s.Sound) :
    ∃ s', s.settle pending = .ok s' ∧
      Leads ds ⟨.applying [] pending, s⟩ ⟨.answering (Declaration.requests ds), s'⟩ := by
  obtain ⟨s', ws, h', hw, hl⟩ := leads_rounds ds s pending hs
  refine ⟨s'.strand ws, by rw [settle_eq_rounds, h']; rfl, hl.trans ?_⟩
  exact .head (.stuck hw) ((leads_stranding _ _ s').tail (.finish _ _))

theorem leads_answering (rs : List TransformRequest) (s : Resolution) :
    Leads ds ⟨.answering rs, s⟩ ⟨.answering [], rs.foldl answer s⟩ := by
  induction rs generalizing s with
  | nil => exact .refl
  | cons r rs ih => exact .head (.answer r rs s) (ih (s.answer r))

/-- **Every declaration list is resolved**, and the run of the machine ends with its resolution. -/
theorem exists_reachable (ds : List Declaration) :
    ∃ s, ofDeclarations ds = .ok s ∧ Reachable ds ⟨.answering [], s⟩ := by
  obtain ⟨s', h', hl'⟩ := leads_settle ds _ (Declaration.permutations ds)
    (sound_foldl_declare ds sound_empty)
  refine ⟨_, by rw [ofDeclarations, h']; rfl, ?_⟩
  exact ((leads_reading ds {}).tail (.start _)).trans (hl'.trans (leads_answering _ s'))

/-! ## Runs -/

/-- **What every event keeps holds throughout.** -/
theorem Reachable.invariant {P : Resolution → Prop} (h : Reachable ds k) (h₀ : P {})
    (hP : ∀ s c o s', P s → Event s c o s' → P s') : P k.state := by
  induction h with
  | refl => exact h₀
  | tail hr hstep ih =>
    rcases Reachable.event hr hstep with e | ⟨c, o, -, he⟩
    · exact e ▸ ih
    · exact hP _ c o _ ih he

theorem Reachable.sound (h : Reachable ds k) : k.state.Sound :=
  h.invariant sound_empty fun _ _ _ _ hs he => he.sound hs

theorem Reachable.recorded (h : Reachable ds k) : k.state.Recorded :=
  h.invariant recorded_empty fun _ _ _ _ hs he => he.recorded hs

theorem Reachable.grows (h : Reachable ds k) (hl : Leads ds k k') : Grows k.state k'.state := by
  induction hl with
  | refl => exact .refl _
  | tail hr hstep ih =>
    rcases Reachable.event (ReflTransGen.trans h hr) hstep with e | ⟨c, o, -, he⟩
    · exact e ▸ ih
    · exact ih.trans he.grows

/-- **Every record was written by a step of the run**, and all steps that followed kept it. -/
theorem Reachable.exists_origin (h : Reachable ds k) {r : Record} (hr : r ∈ k.state.records) :
    ∃ k₀ k₁, Reachable ds k₀ ∧ Step ds k₀ k₁ ∧
      Event k₀.state r.declaration r.outcome k₁.state ∧ Leads ds k₁ k := by
  induction h with
  | refl => cases hr
  | @tail k₁ k₂ hr₁ hstep ih =>
    rcases Reachable.event hr₁ hstep with e | ⟨c, o, -, he⟩
    · obtain ⟨k₀, k₁', h₀, hs, hev, hl⟩ := ih (e ▸ hr)
      exact ⟨k₀, k₁', h₀, hs, hev, hl.tail hstep⟩
    · rw [he.records, List.mem_append, List.mem_singleton] at hr
      rcases hr with hr | rfl
      · obtain ⟨k₀, k₁', h₀, hs, hev, hl⟩ := ih hr
        exact ⟨k₀, k₁', h₀, hs, hev, hl.tail hstep⟩
      · exact ⟨k₁, k₂, hr₁, hstep, he, .refl⟩

end Resolution

end VersionedTypes
