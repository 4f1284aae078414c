import TileRoute.Call.Basic
import TileRoute.Proofs.Number.Counting

/-!
# Checks of a call

A call is checked before it does anything: `Action.checks` lists what is looked at, in order, and
the first check that finds a fault decides about the error. The arguments of a call can be used
exactly if no check finds one.
-/

namespace TileRoute

variable {α : Type} [Scalar α]

/-- What is looked at in a call before it runs. -/
inductive Check where
  | present (index : Nat)
  | numeric (index : Nat)
  | unsigned (index : Nat)
  /-- A flag that is given is no bare word. -/
  | flag (index : Nat)
  | positive (index : Nat)
  /-- The whole part of the second argument is above that of the first. -/
  | ranged
  deriving DecidableEq, Repr

/-- The checks of an action, in order. An argument that is needed is looked for, then its kind is
looked at, and a sign before the next argument. What the arguments of a fade or a wait amount to is
looked at last. -/
def Action.checks : Action → List Check
  | .walk _ => [.numeric 0]
  | .shake _ =>
    [.present 0, .numeric 0, .unsigned 0, .present 1, .numeric 1, .unsigned 1, .present 2,
      .numeric 2]
  | .fade _ => [.present 0, .numeric 0, .flag 1, .positive 0]
  | .actorImage | .memberImage => [.present 0, .numeric 0]
  | .approach => [.present 0, .numeric 0, .present 1, .numeric 1]
  | .randomWait => [.present 0, .numeric 0, .present 1, .numeric 1, .ranged]

namespace Call

def value? (c : Call α) (i : Nat) : Option α :=
  match c.args[i]? with
  | some (.number x) => some x
  | _ => none

/-- What a check finds: an argument that is missing is the business of one check only. -/
def fault? (c : Call α) : Check → Option (CallError α)
  | .present i =>
    match c.args[i]? with
    | none => some (.missingArgument c.action i)
    | some _ => none
  | .numeric i =>
    match c.args[i]? with
    | none => none
    | some (.number _) => none
    | some found => some (.wrongType c.action i .number found)
  | .unsigned i =>
    (c.value? i).bind fun x => if Scalar.Lt x Scalar.zero then some (.negative c.action i x) else none
  | .flag i =>
    match c.args[i]? with
    | some (.word s) => some (.wrongType c.action i .truth (.word s))
    | _ => none
  | .positive i =>
    (c.value? i).bind fun x =>
      if Scalar.Le x Scalar.zero then some (.nonPositiveDuration x) else none
  | .ranged =>
    (c.value? 0).bind fun x => (c.value? 1).bind fun y =>
      let least := (Scalar.exact x).truncate
      let limit := (Scalar.exact y).truncate
      if limit ≤ least then some (.emptyRange least limit) else none

def firstFault? (c : Call α) : Option (CallError α) := c.action.checks.findSome? c.fault?

/-- What is computed fails with the first fault that the checks find, and succeeds if there is
none. -/
def Guards {β : Type} (c : Call α) (checks : List Check) (x : Except (CallError α) β) : Prop :=
  match checks.findSome? c.fault? with
  | some error => x = .error error
  | none => ∃ y, x = .ok y

variable {c : Call α} {xs : List Check} {β γ : Type} {i : Nat}

theorem Guards.error_iff {x : Except (CallError α) β} (h : c.Guards xs x) {error : CallError α} :
    x = .error error ↔ xs.findSome? c.fault? = some error := by
  unfold Guards at h
  split at h
  · rename_i found hfound
    rw [h, hfound, Except.error.injEq, Option.some.injEq]
  · rename_i hnone
    obtain ⟨y, rfl⟩ := h
    rw [hnone]
    exact ⟨nofun, nofun⟩

theorem Guards.ok_iff {x : Except (CallError α) β} (h : c.Guards xs x) :
    (∃ y, x = .ok y) ↔ xs.findSome? c.fault? = none := by
  unfold Guards at h
  split at h
  · rename_i found hfound
    rw [h, hfound]
    exact ⟨nofun, nofun⟩
  · rename_i hnone
    exact ⟨fun _ => hnone, fun _ => h⟩

theorem guards_ok (c : Call α) (y : β) : c.Guards [] (.ok y) := ⟨y, rfl⟩

theorem Guards.bind {x : Except (CallError α) β} {f : β → Except (CallError α) γ}
    (h : c.Guards xs x) (ys : List Check) (k : ∀ y, x = .ok y → c.Guards ys (f y)) :
    c.Guards (xs ++ ys) (x >>= f) := by
  unfold Guards at h ⊢
  rw [List.findSome?_append]
  cases hx : xs.findSome? c.fault? with
  | some error =>
    rw [hx] at h
    subst h
    rfl
  | none =>
    rw [hx] at h
    obtain ⟨y, rfl⟩ := h
    exact k y rfl

theorem Guards.map {x : Except (CallError α) β} (h : c.Guards xs x) (f : β → γ) :
    c.Guards xs (x.map f) := by
  unfold Guards at h ⊢
  split at h
  · subst h
    rfl
  · obtain ⟨y, rfl⟩ := h
    exact ⟨f y, rfl⟩

/-- A test of what has been read is a check if it finds the same fault. -/
theorem guards_ite {p : Prop} [Decidable p] {check : Check} {error : CallError α}
    {x : Except (CallError α) β} (hf : c.fault? check = if p then some error else none)
    (hx : ∃ y, x = .ok y) : c.Guards [check] (if p then .error error else x) := by
  unfold Guards
  rw [List.findSome?_cons, hf]
  by_cases hp : p
  · rw [if_pos hp, if_pos hp]
  · rw [if_neg hp, if_neg hp]
    exact hx

theorem guards_number (c : Call α) (i : Nat) :
    c.Guards [.present i, .numeric i] (c.number i) := by
  unfold Guards number
  simp only [List.findSome?_cons, List.findSome?_nil, fault?]
  cases c.args[i]? with
  | none => rfl
  | some found =>
    cases found with
    | truth b => rfl
    | number x => exact ⟨x, rfl⟩
    | word s => rfl

theorem guards_integer (c : Call α) (i : Nat) :
    c.Guards [.present i, .numeric i] (c.integer i) :=
  (c.guards_number i).map _

omit [Scalar α] in
theorem value?_of_number {x : α} (h : c.number i = .ok x) : c.value? i = some x := by
  rw [value?, number_eq_ok_iff.mp h]

theorem value?_of_integer {a : Int} (h : c.integer i = .ok a) :
    ∃ x, c.value? i = some x ∧ (Scalar.exact x).truncate = a := by
  unfold integer at h
  cases hx : c.number i with
  | error e =>
    rw [hx] at h
    cases h
  | ok x =>
    rw [hx] at h
    cases h
    exact ⟨x, value?_of_number hx, rfl⟩

theorem guards_magnitude (c : Call α) (i : Nat) :
    c.Guards [.present i, .numeric i, .unsigned i] (c.magnitude i) := by
  refine (c.guards_number i).bind [.unsigned i] fun x hx => ?_
  refine guards_ite ?_ ⟨x, rfl⟩
  rw [fault?, value?_of_number hx, Option.bind_some]

theorem guards_number? (c : Call α) (i : Nat) : c.Guards [.numeric i] (c.number? i) := by
  unfold Guards number? number
  simp only [List.findSome?_cons, List.findSome?_nil, fault?]
  by_cases hi : c.args.length ≤ i
  · rw [if_pos hi, List.getElem?_eq_none hi]
    exact ⟨none, rfl⟩
  · have hlt : i < c.args.length := Nat.not_le.mp hi
    rw [if_neg hi, List.getElem?_eq_getElem hlt]
    cases c.args[i] with
    | truth b => rfl
    | number x => exact ⟨some x, rfl⟩
    | word s => rfl

theorem guards_truth (c : Call α) (i : Nat) : c.Guards [.flag i] (c.truth i) := by
  unfold Guards truth
  simp only [List.findSome?_cons, List.findSome?_nil, fault?]
  cases c.args[i]? with
  | none => exact ⟨false, rfl⟩
  | some found =>
    cases found with
    | truth b => exact ⟨b, rfl⟩
    | number x => exact ⟨_, rfl⟩
    | word s => rfl

/-- The argument is a number that stands for this rational. -/
def Reads (c : Call α) (i : Nat) (q : Rat) : Prop :=
  ∃ x, c.args[i]? = some (.number x) ∧ Scalar.exact x = .finite q

/-- All numbers among the arguments are finite, as those of a script line are. -/
def Finite (c : Call α) : Prop := ∀ x, Arg.number x ∈ c.args → (Scalar.exact x).isFinite = true

/-- The arguments are those that the action needs. -/
def Usable (c : Call α) : Prop :=
  match c.action with
  | .walk _ => c.args[0]? = none ∨ ∃ count, c.Reads 0 count
  | .shake _ => (∃ power, c.Reads 0 power ∧ 0 ≤ power) ∧ (∃ speed, c.Reads 1 speed ∧ 0 ≤ speed) ∧
      ∃ duration, c.Reads 2 duration
  | .fade _ => (∃ duration, c.Reads 0 duration ∧ 0 < duration) ∧ ∀ s, c.args[1]? ≠ some (.word s)
  | .actorImage | .memberImage => ∃ id, c.Reads 0 id
  | .approach => (∃ x, c.Reads 0 x) ∧ ∃ y, c.Reads 1 y
  | .randomWait => ∃ least limit, c.Reads 0 least ∧ c.Reads 1 limit ∧
      (Exact.finite least).truncate < (Exact.finite limit).truncate

variable {q : Rat}

theorem Reads.value? (h : c.Reads i q) :
    ∃ x, c.value? i = some x ∧ Scalar.exact x = .finite q := by
  obtain ⟨x, hx, hq⟩ := h
  exact ⟨x, by rw [Call.value?, hx], hq⟩

theorem Reads.integer (h : c.Reads i q) : c.integer i = .ok (Exact.finite q).truncate := by
  obtain ⟨x, hx, hq⟩ := h
  unfold Call.integer
  rw [number_eq_ok_iff.mpr hx, ← hq]
  rfl

theorem reads_iff (h : c.Finite) :
    (∃ q, c.Reads i q) ↔ c.fault? (.present i) = none ∧ c.fault? (.numeric i) = none := by
  simp only [fault?]
  constructor
  · rintro ⟨q, x, hx, -⟩
    rw [hx]
    exact ⟨rfl, rfl⟩
  · rintro ⟨hp, hn⟩
    cases hfound : c.args[i]? with
    | none =>
      rw [hfound] at hp
      cases hp
    | some found =>
      rw [hfound] at hn
      cases found with
      | truth b => cases hn
      | word s => cases hn
      | number x =>
        have hfin := h x (List.mem_of_getElem? hfound)
        cases hx : Scalar.exact x with
        | finite q => exact ⟨q, x, hfound, hx⟩
        | infinite negative =>
          rw [hx] at hfin
          cases hfin
        | undefined =>
          rw [hx] at hfin
          cases hfin

theorem reads_or_missing_iff (h : c.Finite) :
    (c.args[i]? = none ∨ ∃ q, c.Reads i q) ↔ c.fault? (.numeric i) = none := by
  rw [reads_iff h]
  simp only [fault?]
  cases c.args[i]? with
  | none => exact ⟨fun _ => rfl, fun _ => .inl rfl⟩
  | some found => exact ⟨fun hor => (hor.resolve_left nofun).2, fun hn => .inr ⟨rfl, hn⟩⟩

omit [Scalar α] in
theorem ite_some_eq_none_iff {p : Prop} [Decidable p] {error : CallError α} :
    (if p then some error else none) = none ↔ ¬ p := by
  by_cases hp : p
  · rw [if_pos hp]
    exact ⟨nofun, fun hn => absurd hp hn⟩
  · rw [if_neg hp]
    exact ⟨fun _ => hp, fun _ => rfl⟩

theorem unsigned_iff [Counting α] (h : c.Reads i q) : c.fault? (.unsigned i) = none ↔ 0 ≤ q := by
  obtain ⟨x, hx, hq⟩ := h.value?
  rw [fault?, hx, Option.bind_some, ite_some_eq_none_iff, Scalar.Lt, hq, Scalar.exact_zero,
    Exact.finite_lt_finite, Rat.not_lt]

theorem positive_iff [Counting α] (h : c.Reads i q) : c.fault? (.positive i) = none ↔ 0 < q := by
  obtain ⟨x, hx, hq⟩ := h.value?
  rw [fault?, hx, Option.bind_some, ite_some_eq_none_iff, Scalar.positive_iff hq]

theorem flag_iff : c.fault? (.flag i) = none ↔ ∀ s, c.args[i]? ≠ some (.word s) := by
  simp only [fault?]
  cases c.args[i]? with
  | none => exact ⟨fun _ _ => nofun, fun _ => rfl⟩
  | some found =>
    cases found with
    | truth b => exact ⟨fun _ _ => nofun, fun _ => rfl⟩
    | number x => exact ⟨fun _ _ => nofun, fun _ => rfl⟩
    | word s => exact ⟨nofun, fun hn => absurd rfl (hn s)⟩

theorem ranged_iff {least limit : Rat} (hl : c.Reads 0 least) (hu : c.Reads 1 limit) :
    c.fault? .ranged = none ↔ (Exact.finite least).truncate < (Exact.finite limit).truncate := by
  obtain ⟨x, hx, hleast⟩ := hl.value?
  obtain ⟨y, hy, hlimit⟩ := hu.value?
  rw [fault?, hx, hy, Option.bind_some, Option.bind_some, hleast, hlimit]
  exact ite_some_eq_none_iff.trans Int.not_le

/-- A number that a check accepts exactly if it is as it should be. -/
theorem reads_and_iff (h : c.Finite) {check : Check} {p : Rat → Prop}
    (hp : ∀ q, c.Reads i q → (c.fault? check = none ↔ p q)) :
    (∃ q, c.Reads i q ∧ p q) ↔
      c.fault? (.present i) = none ∧ c.fault? (.numeric i) = none ∧ c.fault? check = none := by
  rw [← and_assoc, ← reads_iff h]
  constructor
  · rintro ⟨q, hq, hpq⟩
    exact ⟨⟨q, hq⟩, (hp q hq).mpr hpq⟩
  · rintro ⟨⟨q, hq⟩, hc⟩
    exact ⟨q, hq, (hp q hq).mp hc⟩

/-- No check finds a fault exactly if the arguments are those that the action needs. -/
theorem firstFault?_eq_none_iff [Counting α] (h : c.Finite) : c.firstFault? = none ↔ c.Usable := by
  unfold firstFault? Usable
  rw [List.findSome?_eq_none_iff]
  cases c.action
  all_goals
    simp only [Action.checks, List.forall_mem_cons, List.not_mem_nil, false_imp_iff, implies_true,
      and_true]
  case walk d => exact (reads_or_missing_iff h).symm
  case shake axis =>
    rw [reads_and_iff h fun q hq => unsigned_iff hq, reads_and_iff h fun q hq => unsigned_iff hq,
      reads_iff h, and_assoc, and_assoc, and_assoc, and_assoc]
  case fade ramp =>
    rw [reads_and_iff h fun q hq => positive_iff hq, flag_iff, and_assoc, and_assoc,
      and_comm (a := c.fault? (.positive 0) = none)]
  case actorImage => exact (reads_iff h).symm
  case memberImage => exact (reads_iff h).symm
  case approach => rw [reads_iff h, reads_iff h, and_assoc]
  case randomWait =>
    rw [← and_assoc, ← reads_iff h, ← and_assoc (a := c.fault? (.present 1) = none), ← reads_iff h]
    constructor
    · rintro ⟨⟨least, hl⟩, ⟨limit, hu⟩, hr⟩
      exact ⟨least, limit, hl, hu, (ranged_iff hl hu).mp hr⟩
    · rintro ⟨least, limit, hl, hu, hr⟩
      exact ⟨⟨least, hl⟩, ⟨limit, hu⟩, (ranged_iff hl hu).mpr hr⟩

end Call

end TileRoute
