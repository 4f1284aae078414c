import TileRoute.Lexicon

/-!
# The index of a lexicon

The list of mnemonics and the index belong together: no two names have the same key, and the index
has for the key of each name its place, and nothing else. Registering a mnemonic keeps it so, or is
refused and changes nothing.
-/

namespace TileRoute

/-- The name can be a word of a script line. -/
def Mnemonic.Single (m : Mnemonic) : Prop :=
  Text.allBlank m.name = false ∧ Text.hasBlank m.name = false

namespace Lexicon

structure Sound (l : Lexicon) : Prop where
  single : ∀ m ∈ l.mnemonics, m.Single
  distinct : l.mnemonics.Pairwise fun m n => m.key ≠ n.key
  places_iff : ∀ key i, l.places.lookup key = some i ↔
    ∃ m, l.mnemonics[i]? = some m ∧ m.key = key

variable {l start : Lexicon} {m n : Mnemonic} {word : String} {calls : List Mnemonic}

theorem sound_empty : empty.Sound where
  single _ hm := by cases hm
  distinct := .nil
  places_iff key i := by
    constructor
    · intro h
      cases h
    · rintro ⟨m, hm, -⟩
      cases hm

theorem Sound.place?_eq_some_iff (h : l.Sound) {i : Nat} :
    l.place? word = some i ↔ ∃ m, l.mnemonics[i]? = some m ∧ m.key = Text.capitals word :=
  h.places_iff _ i

/-- A word has a place exactly if a name differs from it in the case of letters at most. -/
theorem Sound.place?_ne_none_iff (h : l.Sound) :
    l.place? word ≠ none ↔ ∃ m ∈ l.mnemonics, m.key = Text.capitals word := by
  rw [Option.ne_none_iff_exists']
  constructor
  · rintro ⟨i, hi⟩
    obtain ⟨m, hm, hk⟩ := h.place?_eq_some_iff.mp hi
    exact ⟨m, List.mem_of_getElem? hm, hk⟩
  · rintro ⟨m, hm, hk⟩
    obtain ⟨i, hi⟩ := List.mem_iff_getElem?.mp hm
    exact ⟨i, h.place?_eq_some_iff.mpr ⟨m, hi, hk⟩⟩

theorem Sound.key_ne (h : l.Sound) (hp : l.place? word = none) (hm : m ∈ l.mnemonics) :
    m.key ≠ Text.capitals word :=
  fun hk => h.place?_ne_none_iff.mpr ⟨m, hm, hk⟩ hp

/-- A word finds the mnemonic whose name differs from it in the case of letters at most. -/
theorem Sound.find?_eq_some_iff (h : l.Sound) :
    l.find? word = some m ↔ m ∈ l.mnemonics ∧ m.key = Text.capitals word := by
  unfold find?
  rw [Option.bind_eq_some_iff]
  constructor
  · rintro ⟨i, hi, hm⟩
    obtain ⟨n, hn, hk⟩ := h.place?_eq_some_iff.mp hi
    obtain rfl : n = m := Option.some.inj (hn.symm.trans hm)
    exact ⟨List.mem_of_getElem? hm, hk⟩
  · rintro ⟨hm, hk⟩
    obtain ⟨i, hi⟩ := List.mem_iff_getElem?.mp hm
    exact ⟨i, h.place?_eq_some_iff.mpr ⟨m, hi, hk⟩, hi⟩

theorem Sound.find?_eq_none_iff (h : l.Sound) :
    l.find? word = none ↔ ∀ m ∈ l.mnemonics, m.key ≠ Text.capitals word := by
  rw [Option.eq_none_iff_forall_ne_some]
  constructor
  · intro hn m hm hk
    exact hn m (h.find?_eq_some_iff.mpr ⟨hm, hk⟩)
  · intro hall m hm
    obtain ⟨hmem, hk⟩ := h.find?_eq_some_iff.mp hm
    exact hall m hmem hk

theorem getElem?_concat_eq_some_iff {α : Type} {xs : List α} {x y : α} {i : Nat} :
    (xs ++ [x])[i]? = some y ↔ xs[i]? = some y ∨ i = xs.length ∧ x = y := by
  rcases Nat.lt_trichotomy i xs.length with hi | hi | hi
  · rw [List.getElem?_append_left hi]
    exact ⟨.inl, fun h => h.resolve_right fun he => by omega⟩
  · rw [hi, List.getElem?_concat_length, List.getElem?_eq_none (Nat.le_refl _), Option.some.injEq]
    exact ⟨fun h => .inr ⟨rfl, h⟩, fun h => (h.resolve_left nofun).2⟩
  · have hlong : (xs ++ [x]).length ≤ i := by
      rw [List.length_append]
      exact hi
    rw [List.getElem?_eq_none hlong, List.getElem?_eq_none (Nat.le_of_lt hi)]
    exact ⟨nofun, fun h => absurd (h.resolve_left nofun).1 (by omega)⟩

/-- What is wrong with a name that is refused. -/
def Refuses (l : Lexicon) (m : Mnemonic) : Prop :=
  Text.allBlank m.name = true ∨ Text.hasBlank m.name = true ∨ ∃ n ∈ l.mnemonics, n.key = m.key

/-- Registering is refused, or puts the mnemonic behind the others. -/
theorem register_cases (l : Lexicon) (m : Mnemonic) :
    (∃ error, l.register m = .error error) ∧
        (Text.allBlank m.name = true ∨ Text.hasBlank m.name = true ∨ l.place? m.name ≠ none) ∨
      l.register m = .ok (l.add m) ∧ m.Single ∧ l.place? m.name = none := by
  unfold register
  cases hb : Text.allBlank m.name with
  | true => exact .inl ⟨⟨_, rfl⟩, .inl rfl⟩
  | false =>
    cases hw : Text.hasBlank m.name with
    | true => exact .inl ⟨⟨_, rfl⟩, .inr (.inl rfl)⟩
    | false =>
      cases hp : l.place? m.name with
      | some i => exact .inl ⟨⟨_, rfl⟩, .inr (.inr nofun)⟩
      | none => exact .inr ⟨rfl, ⟨hb, hw⟩, rfl⟩

/-- The two writes of a registration. The index gets the place of the mnemonic that has just been
put behind the others. -/
def addInPlace (m : Mnemonic) : StateM Lexicon Unit := do
  modify fun l => { l with mnemonics := l.mnemonics ++ [m] }
  modify fun l => { l with places := (m.key, l.mnemonics.length - 1) :: l.places }

theorem run_addInPlace (l : Lexicon) (m : Mnemonic) : (addInPlace m).run l = ((), l.add m) := by
  have hlast : (l.mnemonics ++ [m]).length - 1 = l.mnemonics.length := by
    rw [List.length_append, List.length_singleton, Nat.add_sub_cancel]
  change ((), Lexicon.mk (l.mnemonics ++ [m])
    ((m.key, (l.mnemonics ++ [m]).length - 1) :: l.places)) = _
  rw [hlast]
  rfl

/-- Registering done on the lexicon itself: what has been written stays, even if the call fails in
the end. -/
def registerInPlace (m : Mnemonic) : ExceptT LexiconError (StateM Lexicon) Unit := do
  let l ← get
  if Text.allBlank m.name then throw .blankName
  else if Text.hasBlank m.name then throw (.severalWords m.name)
  else if (l.place? m.name).isSome then throw (.duplicate m.name)
  else addInPlace m

/-- A call in place gives the lexicon that the call gives, and has written nothing when it fails. -/
theorem run_registerInPlace (l : Lexicon) (m : Mnemonic) :
    (registerInPlace m).run.run l =
      match l.register m with
      | .ok next => (.ok (), next)
      | .error e => (.error e, l) := by
  have hadd : (addInPlace m : ExceptT LexiconError (StateM Lexicon) Unit).run.run l =
      (.ok (), l.add m) := by
    change (Except.ok ((addInPlace m).run l).1, ((addInPlace m).run l).2) = _
    rw [run_addInPlace]
  change ((if Text.allBlank m.name then throw .blankName
    else if Text.hasBlank m.name then throw (.severalWords m.name)
    else if (l.place? m.name).isSome then throw (.duplicate m.name)
    else addInPlace m : ExceptT LexiconError (StateM Lexicon) Unit)).run.run l = _
  unfold register
  cases Text.allBlank m.name with
  | true => rfl
  | false =>
    cases Text.hasBlank m.name with
    | true => rfl
    | false =>
      cases (l.place? m.name).isSome with
      | true => rfl
      | false => exact hadd

/-- Calls one after the other, whatever becomes of them. -/
def registerEach : List Mnemonic → StateM Lexicon Unit
  | [] => pure ()
  | m :: rest => do
    let _ ← (registerInPlace m).run
    registerEach rest

theorem run_registerEach (l : Lexicon) (ms : List Mnemonic) :
    (registerEach ms).run l = ((), l.enterAll ms) := by
  induction ms generalizing l with
  | nil => rfl
  | cons m rest ih =>
    have hstep : ((registerInPlace m).run.run l).2 = l.enter m := by
      rw [run_registerInPlace, enter]
      cases l.register m <;> rfl
    change (registerEach rest).run ((registerInPlace m).run.run l).2 = _
    rw [hstep, ih]
    rfl

theorem Sound.register_error_iff (h : l.Sound) :
    (∃ error, l.register m = .error error) ↔ l.Refuses m := by
  have hplace : l.place? m.name ≠ none ↔ ∃ n ∈ l.mnemonics, n.key = m.key := h.place?_ne_none_iff
  unfold Refuses
  rw [← hplace]
  rcases l.register_cases m with ⟨he, hr⟩ | ⟨hok, ⟨hb, hw⟩, hp⟩
  · exact ⟨fun _ => hr, fun _ => he⟩
  · rw [hok, hb, hw, hp]
    constructor
    · rintro ⟨error, he⟩
      cases he
    · rintro (hx | hx | hx)
      · cases hx
      · cases hx
      · exact absurd rfl hx

theorem Sound.add (h : l.Sound) (hs : m.Single) (hp : l.place? m.name = none) :
    (l.add m).Sound where
  single := by
    intro n hn
    rcases List.mem_append.mp hn with hn | hn
    · exact h.single n hn
    · rw [List.mem_singleton.mp hn]
      exact hs
  distinct := by
    refine List.pairwise_append.mpr ⟨h.distinct, List.pairwise_singleton _ _, ?_⟩
    intro n hn k hk
    rw [List.mem_singleton.mp hk]
    exact h.key_ne hp hn
  places_iff key i := by
    -- The place of the new name is the first one in the index, and no other name has its key.
    change List.lookup key ((m.key, l.mnemonics.length) :: l.places) = some i ↔
      ∃ n, (l.mnemonics ++ [m])[i]? = some n ∧ n.key = key
    have hnew : ∀ n ∈ l.mnemonics, n.key ≠ m.key := fun n hn => h.key_ne hp hn
    simp only [List.lookup_cons, getElem?_concat_eq_some_iff]
    by_cases hk : key = m.key
    · subst hk
      rw [beq_self_eq_true]
      constructor
      · rintro ⟨⟩
        exact ⟨m, .inr ⟨rfl, rfl⟩, rfl⟩
      · rintro ⟨n, hn | ⟨rfl, -⟩, hkey⟩
        · exact absurd hkey (hnew n (List.mem_of_getElem? hn))
        · rfl
    · rw [beq_false_of_ne hk, h.places_iff]
      constructor
      · rintro ⟨n, hn, hkey⟩
        exact ⟨n, .inl hn, hkey⟩
      · rintro ⟨n, hn | ⟨-, rfl⟩, hkey⟩
        · exact ⟨n, hn, hkey⟩
        · exact absurd hkey.symm hk

/-- Each entry of a mnemonic is refused and changes nothing, or puts the mnemonic behind the
others. -/
theorem Sound.enter_cases (h : l.Sound) (m : Mnemonic) :
    l.Refuses m ∧ (∃ error, l.register m = .error error) ∧ l.enter m = l ∨
      ¬ l.Refuses m ∧ l.register m = .ok (l.enter m) ∧ (l.enter m).Sound ∧
        (l.enter m).mnemonics = l.mnemonics ++ [m] := by
  have hiff := h.register_error_iff (m := m)
  rcases l.register_cases m with ⟨⟨error, he⟩, -⟩ | ⟨hok, hs, hp⟩
  · refine .inl ⟨hiff.mp ⟨error, he⟩, ⟨error, he⟩, ?_⟩
    rw [enter, he]
    rfl
  · have henter : l.enter m = l.add m := by
      rw [enter, hok]
      rfl
    rw [henter]
    refine .inr ⟨fun hr => ?_, hok, h.add hs hp, rfl⟩
    obtain ⟨error, he⟩ := hiff.mpr hr
    cases he.symm.trans hok

/-- The mnemonics of a row of registrations that are not refused, in the order of the calls. -/
def accepted : Lexicon → List Mnemonic → List Mnemonic
  | _, [] => []
  | l, m :: calls =>
    match l.register m with
    | .ok next => m :: next.accepted calls
    | .error _ => l.accepted calls

theorem enterAll_append (l : Lexicon) (xs ys : List Mnemonic) :
    l.enterAll (xs ++ ys) = (l.enterAll xs).enterAll ys := List.foldl_append

theorem Sound.enterAll (h : l.Sound) (calls : List Mnemonic) :
    (l.enterAll calls).Sound ∧
      (l.enterAll calls).mnemonics = l.mnemonics ++ l.accepted calls := by
  induction calls generalizing l with
  | nil => exact ⟨h, (List.append_nil _).symm⟩
  | cons m calls ih =>
    change ((l.enter m).enterAll calls).Sound ∧ ((l.enter m).enterAll calls).mnemonics = _
    rcases h.enter_cases m with ⟨-, ⟨error, he⟩, hsame⟩ | ⟨-, hok, hnext, hbehind⟩
    · rw [hsame, accepted, he]
      exact ih h
    · rw [accepted, hok]
      obtain ⟨hsound, hmnemonics⟩ := ih hnext
      refine ⟨hsound, ?_⟩
      rw [hmnemonics, hbehind, List.append_assoc]
      rfl

theorem sound_standard : standard.Sound := (sound_empty.enterAll builtins).1

theorem sound_of_start (h : start = empty ∨ start = standard) : start.Sound := by
  rcases h with rfl | rfl
  · exact sound_empty
  · exact sound_standard

end Lexicon

end TileRoute
