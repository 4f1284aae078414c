import TileRoute.Datum.Record
import TileRoute.Logged
import TileRoute.Proofs.Datum.Meaning

/-!
# What records make of data

A property of what a record makes of data with meaningful numbers follows field by field: a field
has it if its reader gives it and its default has it, and a structure is put together from its
fields. Problems do not matter here, since where there is one nothing is made.
-/

namespace TileRoute

theorem Decoded.under_eq_ok {β : Type} {step : Step} {x : Decoded β} {b : β}
    (h : x.under step = .ok b) : x = .ok b := by
  cases x with
  | ok c => exact congrArg Except.ok (Except.ok.inj h)
  | error p => cases h

namespace Placed

variable {β γ : Type}

theorem both_eq_ok {f : Placed (β → γ)} {x : Placed β} {c : γ} (h : both f x = ok c) :
    ∃ g b, f = ok g ∧ x = ok b ∧ g b = c := by
  unfold both at h
  split at h
  · exact ⟨_, _, rfl, rfl, Except.ok.inj h⟩
  · cases h
  · cases h
  · cases h

theorem checked_eq_ok {x : Placed β} {check : Placed Unit} {b : β} (h : x.checked check = ok b) :
    x = ok b := by
  obtain ⟨g, u, hg, -, rfl⟩ := both_eq_ok h
  obtain ⟨k, b, hk, rfl, rfl⟩ := both_eq_ok hg
  obtain rfl := Except.ok.inj hk
  rfl

theorem decoded_eq_ok {x : Placed β} {b : β} (h : x.decoded = .ok b) : x = ok b := by
  unfold decoded at h
  split at h
  · exact congrArg ok (Except.ok.inj h)
  · cases h

theorem inPlace_eq_ok {i : Nat} {d : Decoded β} {b : β} (h : inPlace i d = ok b) : d = .ok b := by
  unfold inPlace at h
  split at h
  · exact congrArg Except.ok (Except.ok.inj h)
  · cases h

end Placed

theorem Datum.meaningful_real? {d : Datum} {x : Float} (hd : d.Meaningful)
    (h : d.real? = .ok x) : Scalar.Meaningful x := by
  cases d with
  | real y =>
    obtain rfl := Except.ok.inj h
    exact meaningful_real_iff.mp hd
  | integer i =>
    obtain rfl := Except.ok.inj h
    exact Binary64.meaningful_ofInt i
  | _ => cases h

theorem Datum.coordinate?_range {d : Datum} {i : Int} (h : d.coordinate? = .ok i) :
    -2147483648 ≤ i ∧ i < 2147483648 := by
  cases d with
  | integer j =>
    simp only [coordinate?, integer?] at h
    split at h
    · rename_i hj
      obtain rfl := Except.ok.inj h
      exact ⟨hj.1, Int.lt_of_le_of_lt hj.2 (by decide)⟩
    · cases h
  | _ => cases h

theorem Datum.forall_mem_of_itemsFrom? {β : Type} {P : β → Prop} {read : Datum → Decoded β}
    (hr : ∀ {d b}, d.Meaningful → read d = .ok b → P b) {items : List Datum}
    (hd : ∀ d ∈ items, d.Meaningful) {i : Nat} {bs : List β}
    (h : itemsFrom? read i items = .ok bs) : ∀ b ∈ bs, P b := by
  induction items generalizing i bs with
  | nil =>
    obtain rfl := Except.ok.inj h
    exact nofun
  | cons d rest ih =>
    obtain ⟨b, hb, h⟩ := ok_of_bind h
    obtain ⟨cs, hcs, h⟩ := ok_of_bind h
    obtain rfl := Except.ok.inj h
    have hfirst := hr (hd d List.mem_cons_self) (Decoded.under_eq_ok hb)
    have hlater := ih (fun e he => hd e (List.mem_cons_of_mem d he)) hcs
    exact List.forall_mem_cons.mpr ⟨hfirst, hlater⟩

theorem Datum.forall_mem_of_list? {β : Type} {P : β → Prop} {read : Datum → Decoded β}
    (hr : ∀ {d b}, d.Meaningful → read d = .ok b → P b) {d : Datum} {bs : List β}
    (hd : d.Meaningful) (h : d.list? read = .ok bs) : ∀ b ∈ bs, P b := by
  cases d with
  | list items closed =>
    obtain ⟨cs, hcs, h⟩ := ok_of_bind h
    split at h
    · obtain rfl := Except.ok.inj h
      exact forall_mem_of_itemsFrom? hr (meaningful_list_iff.mp hd) hcs
    · cases h
  | _ => cases h

namespace Record

variable {β γ : Type} {P : β → Prop} {Q : γ → Prop}

/-- What the record makes of data whose numbers stand for something has a property. -/
structure Yields (r : Record β) (P : β → Prop) : Prop where
  ofEntries : ∀ {entries b}, (∀ e ∈ entries, e.2.Meaningful) → r.ofEntries entries = .ok b → P b
  ofItems : ∀ {start items closed b}, (∀ d ∈ items, d.Meaningful) →
    r.ofItems start items closed = .ok b → P b

theorem yields_any (r : Record β) : r.Yields fun _ => True :=
  ⟨fun _ _ => trivial, fun _ _ => trivial⟩

theorem yields_pure {b : β} (h : P b) : (pure b : Record β).Yields P where
  ofEntries _ hb := by
    obtain rfl := Except.ok.inj hb
    exact h
  ofItems _ hb := by
    obtain rfl := Except.ok.inj hb
    exact h

theorem Yields.seq {f : Record (β → γ)} {x : Record β} (hf : f.Yields fun g => ∀ b, P b → Q (g b))
    (hx : x.Yields P) : (f <*> x).Yields Q where
  ofEntries he hc := by
    obtain ⟨g, b, hg, hb, rfl⟩ := Placed.both_eq_ok hc
    exact hf.ofEntries he hg b (hx.ofEntries he hb)
  ofItems hd hc := by
    obtain ⟨g, b, hg, hb, rfl⟩ := Placed.both_eq_ok hc
    exact hf.ofItems hd hg b (hx.ofItems (fun d hm => hd d (List.mem_of_mem_drop hm)) hb)

theorem Yields.map {f : β → γ} {x : Record β} (h : ∀ b, P b → Q (f b)) (hx : x.Yields P) :
    (f <$> x).Yields Q :=
  .seq (yields_pure h) hx

theorem occurrences_snd {name : String} {entries : List (Key × Datum)} {d : Datum} {i : Nat}
    (h : (d, i) ∈ occurrences name entries) : ∃ e ∈ entries, e.2 = d := by
  obtain ⟨⟨⟨k, e⟩, j⟩, hm, hf⟩ := List.mem_filterMap.mp h
  dsimp only at hf
  split at hf
  · obtain ⟨rfl, rfl⟩ := Prod.mk.inj (Option.some.inj hf)
    exact ⟨_, (List.mem_zipIdx' hm).2 ▸ List.getElem_mem _, rfl⟩
  · cases hf

theorem yields_field {name : String} {read : Datum → Decoded β} {absent? listAbsent? : Option β}
    (hr : ∀ {d b}, d.Meaningful → read d = .ok b → P b) (ha : ∀ b ∈ absent?, P b)
    (hl : ∀ b ∈ listAbsent?, P b) : (field name read absent? listAbsent?).Yields P where
  ofEntries {entries b} he hb := by
    have hvalue : ∀ {d i}, (d, i) ∈ occurrences name entries →
        Placed.inPlace i ((read d).under (.key name)) = .ok b → P b := by
      intro d i hm hd
      obtain ⟨e, hmem, rfl⟩ := occurrences_snd hm
      exact hr (he e hmem) (Decoded.under_eq_ok (Placed.inPlace_eq_ok hd))
    simp only [field] at hb
    split at hb
    · obtain rfl := Except.ok.inj hb
      exact ha _ rfl
    · cases hb
    · rename_i hocc
      exact hvalue (hocc ▸ List.mem_cons_self) hb
    · rename_i hocc
      exact hvalue (hocc ▸ List.mem_cons_self) (Placed.checked_eq_ok hb)
  ofItems {start items closed b} hd hb := by
    simp only [field] at hb
    split at hb
    · exact hr (hd _ List.mem_cons_self) (Decoded.under_eq_ok (Placed.inPlace_eq_ok hb))
    · obtain rfl := Except.ok.inj hb
      exact hl _ rfl
    · cases hb
    · cases hb

theorem yields_required {name : String} {read : Datum → Decoded β}
    (hr : ∀ {d b}, d.Meaningful → read d = .ok b → P b) : (required name read).Yields P :=
  yields_field hr nofun nofun

theorem yields_withDefault {name : String} {read : Datum → Decoded β} {b : β}
    (hr : ∀ {d c}, d.Meaningful → read d = .ok c → P c) (hb : P b) :
    (withDefault name read b).Yields P := by
  have hdefault : ∀ c ∈ some b, P c := by
    intro c hc
    obtain rfl := Option.some.inj hc
    exact hb
  exact yields_field hr hdefault hdefault

theorem Yields.readWith {r : Record β} (h : r.Yields P) {passable : Datum → Bool}
    {refusal : Problem} {d : Datum} {b : β} (hd : d.Meaningful)
    (hb : r.readWith passable refusal d = .ok b) : P b := by
  unfold Record.readWith at hb
  split at hb
  · have hr := Placed.checked_eq_ok (Placed.decoded_eq_ok hb)
    exact h.ofEntries (Datum.meaningful_object_iff.mp hd) hr
  · have hr := Placed.checked_eq_ok (Placed.decoded_eq_ok hb)
    exact h.ofItems (Datum.meaningful_list_iff.mp hd) hr
  · cases hb

end Record

end TileRoute
