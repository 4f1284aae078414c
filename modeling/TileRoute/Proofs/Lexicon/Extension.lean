import TileRoute.Proofs.Lexicon.Index
import TileRoute.Route.Compile

/-!
# Lexicons that grow

Registering more mnemonics is conservative: a line that has been read is read in the same way
afterwards, and only a line whose first word is one of the new mnemonics is read in another way than
before. A route that has been compiled stays as it is, and one that has not is compiled as before
but for those lines.
-/

namespace TileRoute

variable {α : Type} [Scalar α]

namespace Lexicon

/-- The mnemonics of the one lexicon and others behind them are those of the other. -/
structure Extends (l t : Lexicon) (added : List Mnemonic) : Prop where
  before : l.Sound
  after : t.Sound
  mnemonics : t.mnemonics = l.mnemonics ++ added

variable {l t : Lexicon} {added : List Mnemonic} {m : Mnemonic} {word line : String}

theorem Sound.extends (h : l.Sound) (calls : List Mnemonic) :
    l.Extends (l.enterAll calls) (l.accepted calls) :=
  ⟨h, (h.enterAll calls).1, (h.enterAll calls).2⟩

theorem Extends.find?_of_known (h : l.Extends t added) (hm : l.find? word = some m) :
    t.find? word = some m := by
  obtain ⟨hmem, hk⟩ := h.before.find?_eq_some_iff.mp hm
  refine h.after.find?_eq_some_iff.mpr ⟨?_, hk⟩
  rw [h.mnemonics]
  exact List.mem_append_left added hmem

/-- A word that is known already is the key of no new mnemonic. -/
theorem Extends.key_ne (h : l.Extends t added) (hm : l.find? word = some m) {n : Mnemonic}
    (hn : n ∈ added) : n.key ≠ Text.capitals word := by
  obtain ⟨hmem, hk⟩ := h.before.find?_eq_some_iff.mp hm
  have hdistinct := h.after.distinct
  rw [h.mnemonics, List.pairwise_append] at hdistinct
  rw [← hk]
  exact (hdistinct.2.2 m hmem n hn).symm

theorem Extends.find?_of_unknown (h : l.Extends t added) (hl : l.find? word = none) :
    t.find? word = some m ↔ m ∈ added ∧ m.key = Text.capitals word := by
  rw [h.after.find?_eq_some_iff, h.mnemonics, List.mem_append]
  constructor
  · rintro ⟨hm | hm, hk⟩
    · exact absurd hk (h.before.find?_eq_none_iff.mp hl m hm)
    · exact ⟨hm, hk⟩
  · rintro ⟨hm, hk⟩
    exact ⟨.inr hm, hk⟩

theorem read?_of_words {rest : List String} (hw : Text.words line = word :: rest) :
    (l.read? line : Option (Call α)) = (l.find? word).map fun m =>
      ⟨m.action, (rest.take m.action.arity).map Arg.ofText⟩ := by
  simp only [read?, hw]

theorem read?_of_wordless (hw : Text.words line = []) : (l.read? line : Option (Call α)) = none := by
  simp only [read?, hw]

theorem Extends.read?_of_known (h : l.Extends t added) {asked : Call α}
    (hl : l.read? line = some asked) : t.read? line = some asked := by
  cases hw : Text.words line with
  | nil =>
    rw [read?_of_wordless hw] at hl
    cases hl
  | cons word rest =>
    rw [read?_of_words hw] at hl ⊢
    obtain ⟨m, hm, hasked⟩ := Option.map_eq_some_iff.mp hl
    exact Option.map_eq_some_iff.mpr ⟨m, h.find?_of_known hm, hasked⟩

/-- Only a line whose first word is a new mnemonic is read in another way than before. -/
theorem Extends.read?_ne_iff (h : l.Extends t added) :
    (l.read? line : Option (Call α)) ≠ t.read? line ↔
      ∃ word, (Text.words line).head? = some word ∧ ∃ m ∈ added, m.key = Text.capitals word := by
  cases hw : Text.words line with
  | nil =>
    rw [read?_of_wordless hw, read?_of_wordless hw]
    constructor
    · intro hne
      exact absurd rfl hne
    · rintro ⟨word, hword, -⟩
      cases hword
  | cons word rest =>
    simp only [List.head?_cons, Option.some.injEq, exists_eq_left']
    rw [read?_of_words hw, read?_of_words hw]
    cases hl : l.find? word with
    | some m =>
      rw [h.find?_of_known hl]
      constructor
      · intro hne
        exact absurd rfl hne
      · rintro ⟨n, hn, hk⟩
        exact absurd hk (h.key_ne hl hn)
    | none =>
      constructor
      · intro hne
        cases ht : t.find? word with
        | none =>
          rw [ht] at hne
          exact absurd rfl hne
        | some m => exact ⟨m, (h.find?_of_unknown hl).mp ht⟩
      · rintro ⟨m, hm⟩
        rw [(h.find?_of_unknown hl).mpr hm]
        exact nofun

end Lexicon

/-- What compiling keeps of a route, and what it makes of the script lines. -/
structure Route.Renders (l : Lexicon) (r s : Route α) : Prop where
  compiled : s.compiled = true
  repeats : s.repeats = r.repeats
  skippable : s.skippable = r.skippable
  awaited : s.awaited = r.awaited
  length : s.length = r.length
  kept : ∀ i command, r.command? i = some command → (∀ text, command ≠ .script text) →
    s.command? i = some command
  script : ∀ i text, r.command? i = some (.script text) →
    s.command? i =
      some (if r.compiled then .script text else (l.read? text).elim (.script text) .call)

namespace Route

variable {l t : Lexicon} {added : List Mnemonic} {r : Route α} {i : Nat}

theorem command?_compile (h : r.compiled = false) :
    (r.compile l).command? i = (r.command? i).map (Command.compile l) := by
  simp only [compile, h, Bool.false_eq_true, if_false, command?, List.getElem?_map]

theorem renders_compile (l : Lexicon) (r : Route α) : r.Renders l (r.compile l) := by
  cases hc : r.compiled with
  | true =>
    rw [compile_of_compiled hc]
    refine ⟨hc, rfl, rfl, rfl, rfl, fun i command hi _ => hi, fun i text hi => ?_⟩
    rw [hi, hc, if_pos rfl]
  | false =>
    have hform : r.compile l =
        { r with commands := r.commands.map (Command.compile l), compiled := true } := by
      simp only [compile, hc, Bool.false_eq_true, if_false]
    refine ⟨r.compiled_compile l, ?_, ?_, ?_, r.length_compile l, ?_, ?_⟩
    · rw [hform]
    · rw [hform]
    · rw [hform]
    · intro i command hi hscript
      rw [command?_compile hc, hi, Option.map_some]
      cases command with
      | script text => exact absurd rfl (hscript text)
      | finish => rfl
      | step d => rfl
      | turn d => rfl
      | wait frames => rfl
      | call asked => rfl
    · intro i text hi
      rw [command?_compile hc, hi, Option.map_some, hc, if_neg Bool.false_ne_true]
      rfl

theorem compile_script_ne_iff {text : String} :
    (Command.script text : Command α).compile l ≠ (Command.script text : Command α).compile t ↔
      (l.read? text : Option (Call α)) ≠ t.read? text := by
  unfold Command.compile
  dsimp only
  cases (l.read? text : Option (Call α)) with
  | none =>
    cases (t.read? text : Option (Call α)) with
    | none => exact ⟨fun h => absurd rfl h, fun h => absurd rfl h⟩
    | some asked => exact ⟨fun _ => nofun, fun _ => nofun⟩
  | some known =>
    cases (t.read? text : Option (Call α)) with
    | none => exact ⟨fun _ => nofun, fun _ => nofun⟩
    | some asked => simp only [Option.elim_some, ne_eq, Command.call.injEq, Option.some.injEq]

/-- Compiling with a lexicon that has grown makes a difference only to the script lines whose first
word is one of the new mnemonics. -/
theorem command?_compile_ne_iff (h : l.Extends t added) (hc : r.compiled = false) :
    (r.compile l).command? i ≠ (r.compile t).command? i ↔
      ∃ text word, r.command? i = some (.script text) ∧ (Text.words text).head? = some word ∧
        ∃ m ∈ added, m.key = Text.capitals word := by
  cases hi : r.command? i with
  | none =>
    rw [command?_compile hc, command?_compile hc, hi]
    constructor
    · intro hne
      exact absurd rfl hne
    · rintro ⟨text, word, ⟨⟩, -⟩
  | some command =>
    by_cases hs : ∀ text, command ≠ .script text
    · rw [(r.renders_compile l).kept i command hi hs, (r.renders_compile t).kept i command hi hs]
      constructor
      · intro hne
        exact absurd rfl hne
      · rintro ⟨text, word, htext, -⟩
        exact absurd (Option.some.inj htext) (hs text)
    · obtain ⟨text, hn⟩ := Classical.not_forall.mp hs
      obtain rfl := Classical.not_not.mp hn
      rw [command?_compile hc, command?_compile hc, hi, Option.map_some, Option.map_some]
      rw [ne_eq, Option.some.injEq]
      refine (compile_script_ne_iff.trans h.read?_ne_iff).trans ⟨?_, ?_⟩
      · rintro ⟨word, hword⟩
        exact ⟨text, word, rfl, hword⟩
      · rintro ⟨other, word, htext, hword⟩
        obtain rfl : text = other := by
          injection htext with hcommand
          injection hcommand
        exact ⟨word, hword⟩

end Route

namespace Lexicon

/-- The list and the index after a row of registrations, and what can become of the next one. -/
structure Ledger (start : Lexicon) (calls : List Mnemonic) : Prop where
  mnemonics : (start.enterAll calls).mnemonics = start.mnemonics ++ start.accepted calls
  distinct : (start.enterAll calls).mnemonics.Pairwise fun m n => m.key ≠ n.key
  places_iff : ∀ key i, (start.enterAll calls).places.lookup key = some i ↔
    ∃ m, (start.enterAll calls).mnemonics[i]? = some m ∧ m.key = key
  refused_iff : ∀ m, (∃ error, (start.enterAll calls).register m = .error error) ↔
    (start.enterAll calls).Refuses m
  refused : ∀ m, (start.enterAll calls).Refuses m →
    start.enterAll (calls ++ [m]) = start.enterAll calls
  inPlace : (registerEach calls).run start = ((), start.enterAll calls)
  untouched : ∀ m error, (start.enterAll calls).register m = .error error →
    (registerInPlace m).run.run (start.enterAll calls) = (.error error, start.enterAll calls)
  added : ∀ m, ¬ (start.enterAll calls).Refuses m →
    (start.enterAll calls).register m = .ok (start.enterAll (calls ++ [m])) ∧
      start.accepted (calls ++ [m]) = start.accepted calls ++ [m]

/-- What stays as it was when a lexicon grows, and what does not. -/
structure Conservative (α : Type) [Scalar α] (l t : Lexicon) (added : List Mnemonic) : Prop where
  lines : ∀ line (asked : Call α), l.read? line = some asked → t.read? line = some asked
  compiled : ∀ r : Route α, (r.compile l).compile t = r.compile l
  source : ∀ r : Route α, r.compiled = false → ∀ i,
    (r.compile l).command? i ≠ (r.compile t).command? i ↔
      ∃ text word, r.command? i = some (.script text) ∧ (Text.words text).head? = some word ∧
        ∃ m ∈ added, m.key = Text.capitals word
  renders : ∀ r : Route α, r.Renders l (r.compile l) ∧ r.Renders t (r.compile t)

variable {l t start : Lexicon} {added : List Mnemonic}

theorem Sound.ledger (h : start.Sound) (calls : List Mnemonic) : Ledger start calls := by
  obtain ⟨hsound, hmnemonics⟩ := h.enterAll calls
  have hnext : ∀ m, start.enterAll (calls ++ [m]) = (start.enterAll calls).enter m :=
    fun m => start.enterAll_append calls [m]
  refine ⟨hmnemonics, hsound.distinct, hsound.places_iff, fun m => hsound.register_error_iff,
    fun m hm => ?_, run_registerEach start calls, fun m error he => ?_, fun m hm => ?_⟩
  · rw [hnext]
    exact ((hsound.enter_cases m).resolve_right fun hr => hr.1 hm).2.2
  · rw [run_registerInPlace, he]
  · obtain ⟨-, hok, -, hbehind⟩ := (hsound.enter_cases m).resolve_left fun hr => hm hr.1
    have hall := (h.enterAll (calls ++ [m])).2
    rw [hnext, hbehind, hmnemonics, List.append_assoc] at hall
    rw [hnext]
    exact ⟨hok, (List.append_cancel_left hall).symm⟩

theorem Extends.conservative (h : l.Extends t added) : Conservative α l t added where
  lines _ _ := h.read?_of_known
  compiled := Route.compile_compile l t
  source _ hc _ := Route.command?_compile_ne_iff h hc
  renders r := ⟨r.renders_compile l, r.renders_compile t⟩

/-- Registering keeps the list and the index in step, and extends what is read without changing it,
however many calls there are and whichever of them are refused. -/
theorem registering_conservative (h : start = empty ∨ start = standard)
    (calls later : List Mnemonic) :
    Ledger start calls ∧
      start.enterAll (calls ++ later) = (start.enterAll calls).enterAll later ∧
        Conservative α (start.enterAll calls) (start.enterAll (calls ++ later))
          ((start.enterAll calls).accepted later) := by
  have hs := sound_of_start h
  have happend := start.enterAll_append calls later
  refine ⟨hs.ledger calls, happend, ?_⟩
  rw [happend]
  exact ((hs.enterAll calls).1.extends later).conservative

def bow : Mnemonic := ⟨"Bow", "Turn to the audience", .approach⟩

def skip : Mnemonic := ⟨"SKIP", "Step to the right", .walk .right⟩

/-- The second name is known, and the third one is none. -/
def troupe : List Mnemonic :=
  [bow, ⟨"move_u", "Step up", .walk .up⟩, ⟨"take a bow", "Turn to the audience", .approach⟩]

theorem registering_conservative_troupe :
    (standard = empty ∨ standard = standard) ∧ Ledger standard troupe ∧
      standard.enterAll (troupe ++ [skip]) = (standard.enterAll troupe).enterAll [skip] ∧
        Conservative Float (standard.enterAll troupe) (standard.enterAll (troupe ++ [skip]))
          ((standard.enterAll troupe).accepted [skip]) ∧
          standard.accepted troupe = [bow] ∧
            (standard.enterAll troupe).accepted [skip] = [skip] ∧
              (standard.enterAll troupe).mnemonics = builtins ++ [bow] := by
  have h := @registering_conservative Float _ standard (.inr rfl) troupe [skip]
  have haccepted : standard.accepted troupe = [bow] := by decide +kernel
  have hmnemonics := h.1.mnemonics
  rw [mnemonics_standard, haccepted] at hmnemonics
  exact ⟨.inr rfl, h.1, h.2.1, h.2.2, haccepted, by decide +kernel, hmnemonics⟩

end Lexicon

end TileRoute
