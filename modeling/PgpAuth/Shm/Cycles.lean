import PgpAuth.Lib.Route
import PgpAuth.Throttle.Ban
import PgpAuth.Token.SingleUse

/-!
# Zones across reloads

A reload starts a new cycle while workers of older ones go on serving. Both zones are set up
by the same code: every location of the new configuration registers the zone with the size
it was given, and the context of the new cycle points to the memory of the old one when
nginx hands that over, to memory that is there under the zone's name where shared memory
outlives a configuration, and to new memory otherwise.

`Cycles` is the memory behind one of the zones together with the contexts of all cycles, and
`cycleMachine` lets workers of any cycle call into it between reloads. What nginx itself does
is a parameter, `ZoneCore`; `ZoneCore.Documented` is what it documents: it hands over the
context of the last cycle where name, size and tag are the same. Name and tag of a zone are
constants of the module.

* `reload_invisible`: as long as the size stays the same, calls are answered as if there
  had been no reload.
* `accepted_once_per_area`: in general a token is accepted at most once for each piece of
  memory.
-/

namespace PgpAuth

open Lib

/-- The memory areas that have been set up, in order, and for each cycle the size of its
zone and the area its context points to, where it has one. -/
structure Cycles (σ : Type) where
  areas : List σ
  contexts : List (Option (Nat × Nat))
  bounded : ∀ z, some z ∈ contexts → z.2 < areas.length
  deriving DecidableEq, Repr

theorem Cycles.start_bounded {σ : Type} :
    ∀ z : Nat × Nat, some z ∈ ([] : List (Option (Nat × Nat))) → z.2 < ([] : List σ).length :=
  fun _ hz => absurd hz List.not_mem_nil

def Cycles.start {σ : Type} : Cycles σ := ⟨[], [], Cycles.start_bounded⟩

/-- A call by a worker of a cycle, or a reload: the sizes its locations ask for, in their
order, and whether the new memory has room for `sh`. -/
inductive CycleInput (ι : Type) where
  | call (cycle : Nat) (x : ι)
  | reload (sizes : List Nat) (alloc : Bool)
  deriving DecidableEq, Repr

/-- What nginx answers: the size of a zone once a location has asked for one
(`ngx_shared_memory_add`), the context it hands to `init`, and the memory it found where
`shm.exists`. -/
structure ZoneCore (σ : Type) where
  sharedMemoryAdd : Option Nat → Nat → Option Nat
  octx : (s : Cycles σ) → Nat → Option (Fin s.areas.length)
  found : (s : Cycles σ) → Nat → Option (Fin s.areas.length)

/-- A zone keeps the size it was first asked for, and another one is an error. The context of
the last cycle is handed over where its zone has that size. -/
structure ZoneCore.Documented {σ : Type} (core : ZoneCore σ) : Prop where
  add_new : ∀ size, core.sharedMemoryAdd none size = some size
  add_again : ∀ size size',
    core.sharedMemoryAdd (some size') size = if size = size' then some size' else none
  hands_over : ∀ s size, (core.octx s size).map Fin.val =
    s.contexts.getLast?.join.bind fun z => if z.1 = size then some z.2 else none

/-- `add_zone` for all locations of a configuration. -/
def ZoneCore.addZones {σ : Type} (core : ZoneCore σ) (sizes : List Nat) : Option (Option Nat) :=
  sizes.foldlM (fun registered size => (core.sharedMemoryAdd registered size).map some) none

namespace Cycles

variable {σ : Type} (s : Cycles σ)

/-- A cycle without the zone. -/
def withoutZone : Cycles σ where
  areas := s.areas
  contexts := s.contexts ++ [none]
  bounded z hz := s.bounded z (by simpa using hz)

/-- The new context points to memory that is there. -/
def reuse (size : Nat) (area : Fin s.areas.length) : Cycles σ where
  areas := s.areas
  contexts := s.contexts ++ [some (size, area.val)]
  bounded z hz := by
    rcases List.mem_append.mp hz with hOld | hNew
    · exact s.bounded z hOld
    · cases List.mem_singleton.mp hNew
      exact area.isLt

/-- The new context points to new memory. -/
def fresh (empty : σ) (size : Nat) : Cycles σ where
  areas := s.areas ++ [empty]
  contexts := s.contexts ++ [some (size, s.areas.length)]
  bounded z hz := by
    rw [List.length_append, List.length_singleton]
    rcases List.mem_append.mp hz with hOld | hNew
    · exact Nat.lt_succ_of_lt (s.bounded z hOld)
    · cases List.mem_singleton.mp hNew
      exact Nat.lt_succ_self _

/-- `init_zone`: with the context of the old cycle its memory is used as it is, and so is
memory that was there; otherwise an empty `sh` is put into new memory. -/
def initZone (empty : σ) (size : Nat) (octx found : Option (Fin s.areas.length)) (alloc : Bool) :
    Option (Cycles σ) :=
  match octx with
  | some area => some (s.reuse size area)
  | none =>
      match found with
      | some area => some (s.reuse size area)
      | none => if alloc then some (s.fresh empty size) else none

/-- A reload; a configuration that is refused changes nothing. -/
def reload (core : ZoneCore σ) (empty : σ) (sizes : List Nat) (alloc : Bool) : Cycles σ :=
  match core.addZones sizes with
  | none => s
  | some none => s.withoutZone
  | some (some size) =>
      (s.initZone empty size (core.octx s size) (core.found s size) alloc).getD s

/-- The area a worker of this cycle uses. -/
def areaOf (cycle : Nat) : Option Nat := (s.contexts[cycle]?.join).map Prod.snd

theorem areaOf_lt {cycle area : Nat} (h : s.areaOf cycle = some area) : area < s.areas.length := by
  obtain ⟨z, hz, rfl⟩ := Option.map_eq_some_iff.mp h
  exact s.bounded z (List.mem_of_getElem? (Option.join_eq_some_iff.mp hz))

/-- The content of an area; what has not been set up counts as empty. -/
def content (empty : σ) (area : Nat) : σ := s.areas[area]?.getD empty

def store (area : Nat) (sh : σ) : Cycles σ where
  areas := s.areas.set area sh
  contexts := s.contexts
  bounded z hz := by
    rw [List.length_set]
    exact s.bounded z hz

end Cycles

section CycleMachine

variable {σ ι ω : Type} (m : Machine σ ι ω) (core : ZoneCore σ) (empty : σ)

/-- A store with this machine behind every context. -/
def cycleMachine : Machine (Cycles σ) (CycleInput ι) (Option ω) where
  step s i :=
    match i with
    | .reload sizes alloc => (none, s.reload core empty sizes alloc)
    | .call cycle x =>
        match s.areaOf cycle with
        | none => (none, s)
        | some area =>
            let out := m.step (s.content empty area) x
            (some out.1, s.store area out.2)
  legal s i :=
    match i with
    | .reload _ _ => True
    | .call cycle x =>
        match s.areaOf cycle with
        | none => False
        | some area => m.legal (s.content empty area) x

instance [∀ s x, Decidable (m.legal s x)] (s : Cycles σ) (i : CycleInput ι) :
    Decidable ((cycleMachine m core empty).legal s i) :=
  match i with
  | .reload _ _ => isTrue trivial
  | .call cycle x =>
      match h : s.areaOf cycle with
      | none => isFalse (by simp [cycleMachine, h])
      | some area => decidable_of_iff (m.legal (s.content empty area) x) (by simp [cycleMachine, h])

/-- The calls of a run with their answers. -/
def callAnswers {ι ω : Type} (as : List (CycleInput ι × Option ω)) : List (ι × ω) :=
  as.filterMap fun a =>
    match a with
    | (.call _ x, some w) => some (x, w)
    | _ => none

def callsOf {ι : Type} (is : List (CycleInput ι)) : List ι :=
  is.filterMap fun i =>
    match i with
    | .call _ x => some x
    | .reload _ _ => none

/-! ## What a reload leaves alone -/

theorem Cycles.content_store {s : Cycles σ} {area k : Nat} (h : area < s.areas.length) (sh : σ) :
    (s.store area sh).content empty k = if area = k then sh else s.content empty k := by
  simp only [content, store, List.getElem?_set]
  by_cases hk : area = k
  · subst hk
    simp [h]
  · simp [hk]

/-- Everything a reload can do. -/
theorem Cycles.reload_cases (s : Cycles σ) (sizes : List Nat) (alloc : Bool) :
    s.reload core empty sizes alloc = s ∨
      core.addZones sizes = some none ∧ s.reload core empty sizes alloc = s.withoutZone ∨
      ∃ size, core.addZones sizes = some (some size) ∧
        ((∃ area, s.reload core empty sizes alloc = s.reuse size area) ∨
          core.octx s size = none ∧ s.reload core empty sizes alloc = s.fresh empty size) := by
  unfold reload
  cases core.addZones sizes with
  | none => exact .inl rfl
  | some z =>
      cases z with
      | none => exact .inr (.inl ⟨rfl, rfl⟩)
      | some size =>
          dsimp only
          cases hOld : core.octx s size with
          | some area => exact .inr (.inr ⟨size, rfl, .inl ⟨area, rfl⟩⟩)
          | none =>
              cases core.found s size with
              | some area => exact .inr (.inr ⟨size, rfl, .inl ⟨area, rfl⟩⟩)
              | none =>
                  cases alloc with
                  | false => exact .inl rfl
                  | true => exact .inr (.inr ⟨size, rfl, .inr ⟨hOld, rfl⟩⟩)

theorem Cycles.content_reload (s : Cycles σ) (sizes : List Nat) (alloc : Bool) (k : Nat) :
    (s.reload core empty sizes alloc).content empty k = s.content empty k := by
  obtain hEq | ⟨-, hEq⟩ | ⟨size, -, ⟨area, hEq⟩ | ⟨-, hEq⟩⟩ := s.reload_cases core empty sizes alloc
  · rw [hEq]
  · rw [hEq]
    rfl
  · rw [hEq]
    rfl
  · rw [hEq]
    change (s.areas ++ [empty])[k]?.getD empty = s.areas[k]?.getD empty
    rw [List.getElem?_append]
    split_ifs with hk
    · rfl
    · rw [List.getElem?_eq_none (Nat.le_of_not_lt hk)]
      cases k - s.areas.length <;> rfl

theorem Cycles.length_le_reload (s : Cycles σ) (sizes : List Nat) (alloc : Bool) :
    s.areas.length ≤ (s.reload core empty sizes alloc).areas.length := by
  obtain hEq | ⟨-, hEq⟩ | ⟨size, -, ⟨area, hEq⟩ | ⟨-, hEq⟩⟩ := s.reload_cases core empty sizes alloc
  · rw [hEq]
  · exact Nat.le_of_eq (by rw [hEq]; rfl)
  · exact Nat.le_of_eq (by rw [hEq]; rfl)
  · rw [hEq]
    change s.areas.length ≤ (s.areas ++ [empty]).length
    rw [List.length_append]
    exact Nat.le_add_right _ _

/-- Each area is a store of its own. -/
def cycleRouting : Routing (cycleMachine m core empty) m Nat where
  route s i :=
    match i with
    | .reload _ _ => none
    | .call cycle x => (s.areaOf cycle).map fun area => (area, x)
  part s k := s.content empty k
  read := id
  mine := by
    intro s i k x hLegal hRoute
    cases i with
    | reload sizes alloc => cases hRoute
    | call cycle y =>
        cases hArea : s.areaOf cycle with
        | none =>
            simp [hArea] at hRoute
        | some area =>
            simp only [hArea, Option.map_some, Option.some.injEq, Prod.mk.injEq] at hRoute
            obtain ⟨rfl, rfl⟩ := hRoute
            simp only [cycleMachine, hArea] at hLegal ⊢
            refine ⟨hLegal, rfl, ?_⟩
            rw [Cycles.content_store empty (s.areaOf_lt hArea), if_pos rfl]
  other := by
    intro s i k hLegal hRoute
    cases i with
    | reload sizes alloc => exact s.content_reload core empty sizes alloc k
    | call cycle y =>
        cases hArea : s.areaOf cycle with
        | none => simp only [cycleMachine, hArea]
        | some area =>
            have hk : area ≠ k := by
              rintro rfl
              exact hRoute y (by simp [hArea])
            simp only [cycleMachine, hArea]
            rw [Cycles.content_store empty (s.areaOf_lt hArea), if_neg hk]

variable {m core empty} {s : Cycles σ} {is : List (CycleInput ι)}

theorem length_le_final :
    s.areas.length ≤ ((cycleMachine m core empty).final s is).areas.length := by
  induction is generalizing s with
  | nil => exact Nat.le_refl _
  | cons i is ih =>
      refine Nat.le_trans ?_ ih
      cases i with
      | reload sizes alloc => exact s.length_le_reload core empty sizes alloc
      | call cycle x =>
          simp only [cycleMachine]
          cases s.areaOf cycle with
          | none => exact Nat.le_refl _
          | some area => exact Nat.le_of_eq (List.length_set).symm

/-- A legal call is handed on to the area of its cycle. -/
theorem handles_call {cycle : Nat} {x : ι}
    (hLegal : (cycleMachine m core empty).legal s (.call cycle x)) :
    ∃ area w, s.areaOf cycle = some area ∧
      ((cycleMachine m core empty).step s (.call cycle x)).1 = some w ∧
      (cycleRouting m core empty).handles s (.call cycle x) = some (area, x, w) := by
  cases hArea : s.areaOf cycle with
  | none => simp [cycleMachine, hArea] at hLegal
  | some area =>
      have hRoute : (cycleRouting m core empty).route s (.call cycle x) = some (area, x) := by
        simp [cycleRouting, hArea]
      refine ⟨area, _, rfl, ?_, Routing.handles_of_route hLegal hRoute⟩
      simp only [cycleMachine, hArea]
      rfl

theorem callAnswers_eq (hRun : (cycleMachine m core empty).LegalRun s is) :
    callAnswers ((cycleMachine m core empty).answers s is) =
      ((cycleRouting m core empty).handled s is).map Prod.snd := by
  induction is generalizing s with
  | nil => rfl
  | cons i is ih =>
      have hRest := ih hRun.2
      rw [Machine.answers, Routing.handled, List.map_append, ← hRest]
      cases i with
      | reload sizes alloc => rfl
      | call cycle x =>
          obtain ⟨area, w, -, hAns, hHandles⟩ := handles_call hRun.1
          rw [hHandles, hAns]
          rfl

theorem map_fst_callAnswers (hRun : (cycleMachine m core empty).LegalRun s is) :
    (callAnswers ((cycleMachine m core empty).answers s is)).map Prod.fst = callsOf is := by
  induction is generalizing s with
  | nil => rfl
  | cons i is ih =>
      have hRest := ih hRun.2
      rw [Machine.answers]
      cases i with
      | reload sizes alloc => exact hRest
      | call cycle x =>
          obtain ⟨area, w, -, hAns, -⟩ := handles_call hRun.1
          rw [hAns]
          exact congrArg (x :: ·) hRest

/-- Nothing is handed on to memory that is not there in the end. -/
theorem handled_lt (hRun : (cycleMachine m core empty).LegalRun s is) :
    ∀ a ∈ (cycleRouting m core empty).handled s is,
      a.1 < ((cycleMachine m core empty).final s is).areas.length := by
  induction is generalizing s with
  | nil => exact fun a ha => absurd ha List.not_mem_nil
  | cons i is ih =>
      intro a ha
      rw [Routing.handled] at ha
      rcases List.mem_append.mp ha with hFirst | hLater
      · cases i with
        | reload sizes alloc => cases hFirst
        | call cycle x =>
            obtain ⟨area, w, hArea, -, hHandles⟩ := handles_call hRun.1
            rw [hHandles] at hFirst
            cases List.mem_singleton.mp hFirst
            exact Nat.lt_of_lt_of_le (s.areaOf_lt hArea) length_le_final
      · exact ih hRun.2 a hLater

/-! ## Reloads that keep the size -/

/-- Where the locations of a reload agree on a size, it is `size`; where they do not, the
configuration is refused. -/
def KeepsSize (size : Nat) : CycleInput ι → Prop
  | .call _ _ => True
  | .reload sizes _ => (∀ z ∈ sizes, ∀ z' ∈ sizes, z = z') → size ∈ sizes

instance (size : Nat) (i : CycleInput ι) : Decidable (KeepsSize size i) :=
  match i with
  | .call _ _ => isTrue trivial
  | .reload sizes _ =>
      inferInstanceAs (Decidable ((∀ z ∈ sizes, ∀ z' ∈ sizes, z = z') → size ∈ sizes))

/-- A zone that is registered has the size of every location. -/
theorem addZones_eq_some (hCore : core.Documented) {sizes : List Nat} {registered : Option Nat}
    (h : core.addZones sizes = some registered) : ∀ z ∈ sizes, registered = some z := by
  have hFold (sizes : List Nat) (size : Nat) (z : Option Nat) : sizes.foldlM
      (fun registered size => (core.sharedMemoryAdd registered size).map some) (some size) =
        some z → z = some size ∧ ∀ z' ∈ sizes, z' = size := by
    intro hz
    induction sizes with
    | nil => exact ⟨(Option.some.inj hz).symm, nofun⟩
    | cons size' sizes ih =>
        rw [List.foldlM_cons, hCore.add_again] at hz
        split_ifs at hz with hSame
        · obtain ⟨hEq, hRest⟩ := ih hz
          exact ⟨hEq, fun z' hz' => (List.mem_cons.mp hz').elim (·.trans hSame) (hRest z')⟩
        · cases hz
  cases sizes with
  | nil => exact nofun
  | cons size sizes =>
      rw [ZoneCore.addZones, List.foldlM_cons, hCore.add_new] at h
      obtain ⟨rfl, hRest⟩ := hFold sizes size registered h
      intro z hz
      rcases List.mem_cons.mp hz with rfl | hz
      · rfl
      · rw [hRest z hz]

theorem KeepsSize.registered (hCore : core.Documented) {size : Nat} {sizes : List Nat}
    {alloc : Bool} (hSize : KeepsSize size (.reload sizes alloc : CycleInput ι))
    {registered : Option Nat} (h : core.addZones sizes = some registered) :
    registered = some size := by
  have hAll := addZones_eq_some hCore h
  exact hAll size (hSize fun z hz z' hz' => Option.some.inj ((hAll z hz).symm.trans (hAll z' hz')))

/-- All contexts point to the first area, and there is no other. -/
def OneArea (size : Nat) (s : Cycles σ) : Prop :=
  (∀ z ∈ s.contexts, z = some (size, 0)) ∧ (s.contexts = [] → s.areas = []) ∧ s.areas.length ≤ 1

theorem OneArea.start (size : Nat) : OneArea size (Cycles.start : Cycles σ) :=
  ⟨fun _ hz => absurd hz List.not_mem_nil, fun _ => rfl, Nat.zero_le 1⟩

/-- nginx hands over the one area there is, unless there is none yet. -/
theorem OneArea.contexts_of_octx (hCore : core.Documented) {size : Nat} (h : OneArea size s)
    (hOld : core.octx s size = none) : s.contexts = [] := by
  have hHands := hCore.hands_over s size
  rw [hOld, Option.map_none] at hHands
  cases hLast : s.contexts.getLast? with
  | none => exact List.getLast?_eq_none_iff.mp hLast
  | some z =>
      cases h.1 z (List.mem_of_getLast? hLast)
      simp [hLast] at hHands

theorem OneArea.reload (hCore : core.Documented) {size : Nat} (h : OneArea size s)
    {sizes : List Nat} {alloc : Bool}
    (hSize : KeepsSize size (.reload sizes alloc : CycleInput ι)) :
    OneArea size (s.reload core empty sizes alloc) := by
  have hSnoc {c : List (Option (Nat × Nat))} {z : Option (Nat × Nat)}
      (hc : ∀ z ∈ c, z = some (size, 0)) (hz : z = some (size, 0)) :
      ∀ z' ∈ c ++ [z], z' = some (size, 0) := by
    intro z' hz'
    rcases List.mem_append.mp hz' with hOld | hNew
    · exact hc z' hOld
    · rw [List.mem_singleton.mp hNew, hz]
  obtain hEq | ⟨hNone, -⟩ | ⟨size', hZones, ⟨area, hEq⟩ | ⟨hOld, hEq⟩⟩ :=
    s.reload_cases core empty sizes alloc
  · rwa [hEq]
  · cases hSize.registered hCore hNone
  · cases hSize.registered hCore hZones
    have hZero : area.val = 0 := by
      have hOne := h.2.2
      omega
    rw [hEq]
    exact ⟨hSnoc h.1 (by rw [hZero]), fun hc => absurd hc (by simp [Cycles.reuse]), h.2.2⟩
  · cases hSize.registered hCore hZones
    have hAreas := h.2.1 (h.contexts_of_octx hCore hOld)
    rw [hEq]
    refine ⟨hSnoc h.1 ?_, fun hc => absurd hc (by simp [Cycles.fresh]), ?_⟩
    · rw [hAreas]
      rfl
    · simp [Cycles.fresh, hAreas]

theorem OneArea.areaOf {size : Nat} (h : OneArea size s) {cycle area : Nat}
    (hArea : s.areaOf cycle = some area) : area = 0 := by
  obtain ⟨z, hz, rfl⟩ := Option.map_eq_some_iff.mp hArea
  cases h.1 _ (List.mem_of_getElem? (Option.join_eq_some_iff.mp hz))
  rfl

theorem OneArea.step (hCore : core.Documented) {size : Nat} (h : OneArea size s) {i : CycleInput ι}
    (hSize : KeepsSize size i) : OneArea size ((cycleMachine m core empty).step s i).2 := by
  cases i with
  | reload sizes alloc => exact h.reload hCore hSize
  | call cycle x =>
      simp only [cycleMachine]
      cases s.areaOf cycle with
      | none => exact h
      | some area =>
          refine ⟨h.1, fun hc => ?_, ?_⟩
          · change s.areas.set area _ = []
            rw [h.2.1 hc]
            rfl
          · change (s.areas.set area _).length ≤ 1
            rw [List.length_set]
            exact h.2.2

theorem OneArea.handled (hCore : core.Documented) {size : Nat} (h : OneArea size s)
    (hRun : (cycleMachine m core empty).LegalRun s is) (hSize : ∀ i ∈ is, KeepsSize size i) :
    ∀ a ∈ (cycleRouting m core empty).handled s is, a.1 = 0 := by
  induction is generalizing s with
  | nil => exact fun a ha => absurd ha List.not_mem_nil
  | cons i is ih =>
      intro a ha
      rw [Routing.handled] at ha
      rcases List.mem_append.mp ha with hFirst | hLater
      · cases i with
        | reload sizes alloc => cases hFirst
        | call cycle x =>
            obtain ⟨area, w, hArea, -, hHandles⟩ := handles_call hRun.1
            rw [hHandles] at hFirst
            cases List.mem_singleton.mp hFirst
            exact h.areaOf hArea
      · exact ih (h.step hCore (hSize i List.mem_cons_self)) hRun.2
          (fun j hj => hSize j (List.mem_cons_of_mem i hj)) a hLater

/-- As long as the size stays the same, calls are answered as if there had been no reload,
whatever cycle their worker belongs to. -/
theorem reload_invisible (hCore : core.Documented) {size : Nat}
    (hRun : (cycleMachine m core empty).LegalRun .start is)
    (hSize : ∀ i ∈ is, KeepsSize size i) :
    m.LegalRun empty (callsOf is) ∧
      callAnswers ((cycleMachine m core empty).answers .start is) = m.answers empty (callsOf is) := by
  have hZero := (OneArea.start size).handled hCore hRun hSize
  have hAll : callAnswers ((cycleMachine m core empty).answers .start is) =
      (cycleRouting m core empty).answersOf 0 .start is := by
    rw [callAnswers_eq hRun, Routing.answersOf_of_only hZero]
  have hCalls : (cycleRouting m core empty).inputsOf 0 .start is = callsOf is := by
    rw [Routing.inputsOf, ← hAll, map_fst_callAnswers hRun]
  have hLegal := Routing.legalRun_inputsOf (R := cycleRouting m core empty) (k := 0) hRun
  rw [hCalls] at hLegal
  refine ⟨hLegal, ?_⟩
  rw [hAll, Routing.answersOf_eq hRun, hCalls]
  rfl

end CycleMachine

/-! ## The two stores -/

/-- Every area by itself accepts a token at most once. -/
theorem zone_accepts_once (hmac : Hmac) (ops : ShmOps NonceNode) (t : ChallengeToken)
    {run : List Presentation}
    (hRun : ((zoneMachine hmac ops).restrict NotInLastSecond).LegalRun .empty run) :
    (((zoneMachine hmac ops).restrict NotInLastSecond).answers .empty run).countP (accepts t) ≤
      1 :=
  Machine.countP_answers_le_one (m := (zoneMachine hmac ops).restrict NotInLastSecond)
    (fun s _ hLegal (h : s.store.zone.Wf ops) => zoneMachine_wf hLegal.1 h)
    (fun s _ hLegal h (hSpent : Spent t s) => spent_step hLegal.1 h hSpent)
    (fun _ _ hLegal h hSpent => not_accepts_of_spent hLegal.1 hLegal.2 h hSpent)
    (fun _ _ hLegal h hAcc => spent_of_accepts hLegal.1 h hAcc) hRun NonceSh.Wf.empty

/-- Whatever the reloads between them do, calls accept a token at most once for each piece of
memory that was set up for the zone; at most once where the size never changes. The clock
under the zone's lock does not go back, and no accepted token comes again in its last
second. -/
theorem accepted_once_across_reloads (hmac : Hmac) (ops : ShmOps NonceNode)
    {core : ZoneCore ZoneHistory} {run : List (CycleInput Presentation)}
    (hRun : (cycleMachine ((zoneMachine hmac ops).restrict NotInLastSecond) core .empty).LegalRun
      .start run) (t : ChallengeToken) :
    (callAnswers ((cycleMachine ((zoneMachine hmac ops).restrict NotInLastSecond) core
          .empty).answers .start run)).countP (accepts t) ≤
        ((cycleMachine ((zoneMachine hmac ops).restrict NotInLastSecond) core .empty).final
          .start run).areas.length ∧
      (core.Documented → ∀ size, (∀ i ∈ run, KeepsSize size i) →
        (callAnswers ((cycleMachine ((zoneMachine hmac ops).restrict NotInLastSecond) core
          .empty).answers .start run)).countP (accepts t) ≤ 1) := by
  constructor
  · have hCard := Routing.countP_handled_le_card (R := cycleRouting _ _ _) (accepts t)
      (Finset.range _) (fun a ha => Finset.mem_range.mpr (handled_lt hRun a ha)) hRun
      (fun _ _ _ hXs => zone_accepts_once hmac ops t hXs)
    rw [Finset.card_range] at hCard
    rw [callAnswers_eq hRun, List.countP_map]
    exact hCard
  · intro hCore size hSize
    obtain ⟨hLegal, hEq⟩ := reload_invisible hCore hRun hSize
    rw [hEq]
    exact zone_accepts_once hmac ops t hLegal

/-- An nginx where shared memory goes with its last process. -/
def sampleCore (σ : Type) : ZoneCore σ where
  sharedMemoryAdd registered size :=
    match registered with
    | none => some size
    | some size' => if size = size' then some size' else none
  octx s size :=
    match h : s.contexts.getLast? with
    | some (some z) =>
        if z.1 = size then some ⟨z.2, s.bounded z (List.mem_of_getLast? h)⟩ else none
    | _ => none
  found _ _ := none

theorem sampleCore_documented (σ : Type) : (sampleCore σ).Documented where
  add_new _ := rfl
  add_again _ _ := rfl
  hands_over s size := by
    simp only [sampleCore]
    split
    · rename_i z hLast
      simp only [hLast, Option.join_some, Option.bind_some]
      split_ifs <;> rfl
    · rename_i hLast
      cases hCtx : s.contexts.getLast? with
      | none => rfl
      | some z =>
          cases z with
          | none => rfl
          | some z => exact absurd hCtx (hLast z)

/-- A worker of the first cycle takes the sample challenge; after a reload that keeps the size
a worker of the second one is shown it again, and after a reload with another size one of the
third. -/
def reloadedRun : List (CycleInput Presentation) :=
  [.reload [65536, 65536] true, .call 0 (samplePresentation 998), .reload [65536] true,
    .call 1 (samplePresentation 998), .reload [131072] true, .call 2 (samplePresentation 999)]

theorem reloadedRun_accepted :
    (∀ t, (callAnswers ((cycleMachine ((zoneMachine sampleHmac sampleZone).restrict
        NotInLastSecond) (sampleCore _) .empty).answers .start (reloadedRun.take 4))).countP
          (accepts t) ≤ 1) ∧
      (callAnswers ((cycleMachine ((zoneMachine sampleHmac sampleZone).restrict NotInLastSecond)
        (sampleCore _) .empty).answers .start reloadedRun)).map Prod.snd =
          [.ok, .declined, .ok] := by
  have hRun : (cycleMachine ((zoneMachine sampleHmac sampleZone).restrict NotInLastSecond)
      (sampleCore _) .empty).LegalRun .start (reloadedRun.take 4) := by decide +kernel
  refine ⟨fun t => ?_, by decide +kernel⟩
  exact (accepted_once_across_reloads sampleHmac sampleZone hRun t).2 (sampleCore_documented _)
    65536 (by decide +kernel)

/-- As long as the size stays the same a ban lasts to its end through every reload, for
workers of old cycles and new ones. -/
theorem bans_survive_reloads (ops : ShmOps ThrottleNode) {core : ZoneCore ThrottleWorld}
    (hCore : core.Documented) {size : Nat} {run : List (CycleInput ThrottleInput)}
    (hRun : (cycleMachine ((throttleMachine ops).restrict (KeepsBan ops)) core .start).LegalRun
      .start run) (hSize : ∀ i ∈ run, KeepsSize size i) :
    BansKept ops (callsOf run) ∧
      callAnswers ((cycleMachine ((throttleMachine ops).restrict (KeepsBan ops)) core
        .start).answers .start run) = (throttleMachine ops).answers .start (callsOf run) := by
  obtain ⟨hLegal, hEq⟩ := reload_invisible hCore hRun hSize
  refine ⟨bansKept_of_keepsBan hLegal, ?_⟩
  rw [hEq, Machine.answers_restrict]

/-- An address is banned by a worker of the first cycle and asked for by one of the second. -/
def bannedAcrossReload : List (CycleInput ThrottleInput) :=
  [.reload [65536] true, .call 0 (callAt 1 addrA (.record false 1 60 300)), .reload [65536] true,
    .call 1 (callAt 10 addrA .isBanned)]

theorem bannedAcrossReload_kept : BansKept collidingShm (callsOf bannedAcrossReload) :=
  (@bans_survive_reloads collidingShm (sampleCore _) (sampleCore_documented _) 65536
    bannedAcrossReload (by decide +kernel) (by decide +kernel)).1

end PgpAuth
