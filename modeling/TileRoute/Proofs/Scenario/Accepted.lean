import Mathlib.Data.List.Nodup
import TileRoute.Stage.Basic

/-!
# Accepted scenarios

A scenario is accepted if its map can be drawn, tiles have a size, and the parts have labels of
their own, not all blank, and starts that a character can stand on. Each of its parts alone makes an
accepted scenario.
-/

namespace TileRoute.Scenario

variable {α : Type}

/-- A part that is in order by itself, whatever the others are. -/
def Sound (g : Grid) (p : Part α) : Prop :=
  Text.allBlank p.label = false ∧ g.passable p.start = true

theorem partFlaw?_cons_eq_none_iff {g : Grid} {labels : List String} {i : Nat} {p : Part α}
    {rest : List (Part α)} :
    partFlaw? g labels i (p :: rest) = none ↔
      Sound g p ∧ p.label ∉ labels ∧ partFlaw? g (p.label :: labels) (i + 1) rest = none := by
  simp only [partFlaw?, Sound]
  cases Text.allBlank p.label with
  | true => simp
  | false =>
    cases g.passable p.start with
    | false =>
      by_cases hm : p.label ∈ labels <;> simp [hm]
    | true =>
      by_cases hm : p.label ∈ labels <;> simp [hm]

theorem partFlaw?_eq_none_iff {g : Grid} {labels : List String} {i : Nat} {ps : List (Part α)} :
    partFlaw? g labels i ps = none ↔
      (∀ p ∈ ps, Sound g p ∧ p.label ∉ labels) ∧ (ps.map Part.label).Nodup := by
  induction ps generalizing labels i with
  | nil => simp [partFlaw?]
  | cons p rest ih =>
    rw [partFlaw?_cons_eq_none_iff, ih, List.map_cons, List.nodup_cons]
    constructor
    · rintro ⟨hs, hp, hr, hn⟩
      refine ⟨?_, ?_, hn⟩
      · intro q hq
        rcases List.mem_cons.mp hq with rfl | hq
        · exact ⟨hs, hp⟩
        · exact ⟨(hr q hq).1, fun hm => (hr q hq).2 (List.mem_cons_of_mem _ hm)⟩
      · intro hm
        obtain ⟨q, hq, he⟩ := List.mem_map.mp hm
        exact (hr q hq).2 (by rw [he]; exact List.mem_cons_self ..)
    · rintro ⟨ha, hp, hn⟩
      have hs := ha p (List.mem_cons_self ..)
      refine ⟨hs.1, hs.2, fun q hq => ?_, hn⟩
      have ht := ha q (List.mem_cons_of_mem _ hq)
      refine ⟨ht.1, fun hm => ?_⟩
      rcases List.mem_cons.mp hm with he | hm
      · exact hp (List.mem_map.mpr ⟨q, hq, he⟩)
      · exact ht.2 hm

variable [Scalar α]

/-- The tiles have a size that can be divided by. -/
def Sized (s : Scenario α) : Prop :=
  ¬ (Scalar.Le s.settings.tileWidth Scalar.zero ∨ Scalar.Le s.settings.tileHeight Scalar.zero)

theorem flaw?_eq_none_iff {s : Scenario α} {g : Grid} :
    s.flaw? g = none ↔
      s.Sized ∧ (∀ p ∈ s.parts, Sound g p) ∧ (s.parts.map Part.label).Nodup := by
  simp only [flaw?, Sized]
  split
  · rename_i hs
    simp [hs]
  · rename_i hs
    simp [hs, partFlaw?_eq_none_iff]

theorem check_eq_ok_iff {s : Scenario α} :
    s.check = .ok () ↔ ∃ g, s.map.draw = .ok g ∧ s.flaw? g = none := by
  simp only [check]
  cases hd : s.map.draw with
  | error e =>
    constructor
    · intro h
      cases h
    · rintro ⟨g, h, -⟩
      cases h
  | ok g =>
    have hb : ∀ x : Grid → Except ScenarioError Unit,
        (Except.mapError ScenarioError.badMap (.ok g) >>= x) = x g := fun _ => rfl
    rw [hb]
    cases hf : s.flaw? g with
    | none => exact ⟨fun _ => ⟨g, rfl, hf⟩, fun _ => rfl⟩
    | some flaw =>
      constructor
      · intro h
        cases h
      · rintro ⟨g', he, hn⟩
        cases he
        cases hf.symm.trans hn

omit [Scalar α] in
/-- The scenario with one part and nobody else, in the same place. -/
def solo (s : Scenario α) (p : Part α) : Scenario α := { s with parts := [p] }

theorem check_solo {s : Scenario α} (h : s.check = .ok ()) {p : Part α} (hp : p ∈ s.parts) :
    (s.solo p).check = .ok () := by
  obtain ⟨g, hd, hf⟩ := check_eq_ok_iff.mp h
  obtain ⟨hz, hs, -⟩ := flaw?_eq_none_iff.mp hf
  refine check_eq_ok_iff.mpr ⟨g, hd, flaw?_eq_none_iff.mpr ⟨hz, ?_, ?_⟩⟩
  · intro q hq
    rw [List.mem_singleton.mp hq]
    exact hs p hp
  · exact List.nodup_singleton _

end TileRoute.Scenario
