import TileRoute.Proofs.Call.Checks
import TileRoute.Proofs.Character.Count
import TileRoute.Proofs.Number.Binary64

/-!
# Calls that are refused

Whether a call is refused depends on its arguments alone. Nothing is written before the last check,
so that a refused call leaves a character as it was even if every write were to stay; and a route
goes on from a refused call as from any other command that asks for nothing.
-/

namespace TileRoute

variable {α : Type} [Scalar α]

namespace Character

/-- A call is refused for the first fault that its checks find, and runs if they find none. -/
theorem guards_invoke (w : World α) (c : Character α) (asked : Call α) :
    asked.Guards asked.action.checks (c.invoke w asked) := by
  cases ha : asked.action with
  | walk d =>
    simp only [invoke, ha]
    exact (asked.guards_number? 0).bind [] fun count _ => Call.guards_ok asked _
  | shake axis =>
    simp only [invoke, ha]
    refine (asked.guards_magnitude 0).bind
      [.present 1, .numeric 1, .unsigned 1, .present 2, .numeric 2] fun power _ => ?_
    refine (asked.guards_magnitude 1).bind [.present 2, .numeric 2] fun speed _ => ?_
    exact (asked.guards_integer 2).bind [] fun duration _ => Call.guards_ok asked _
  | fade ramp =>
    simp only [invoke, ha]
    refine (asked.guards_number 0).bind [.flag 1, .positive 0] fun duration hd => ?_
    refine (asked.guards_truth 1).bind [.positive 0] fun blocks _ => ?_
    refine Call.guards_ite ?_ ⟨_, rfl⟩
    rw [Call.fault?, Call.value?_of_number hd, Option.bind_some]
  | actorImage =>
    simp only [invoke, ha]
    exact (asked.guards_integer 0).bind [] fun id _ => Call.guards_ok asked _
  | memberImage =>
    simp only [invoke, ha]
    exact (asked.guards_integer 0).bind [] fun slot _ => Call.guards_ok asked _
  | approach =>
    simp only [invoke, ha]
    refine (asked.guards_integer 0).bind [.present 1, .numeric 1] fun x _ => ?_
    exact (asked.guards_integer 1).bind [] fun y _ => Call.guards_ok asked _
  | randomWait =>
    simp only [invoke, ha]
    refine (asked.guards_integer 0).bind [.present 1, .numeric 1, .ranged] fun least hl => ?_
    refine (asked.guards_integer 1).bind [.ranged] fun limit hu => ?_
    obtain ⟨x, hx, rfl⟩ := Call.value?_of_integer hl
    obtain ⟨y, hy, rfl⟩ := Call.value?_of_integer hu
    refine (Call.guards_ite (p := (Scalar.exact y).truncate ≤ (Scalar.exact x).truncate) ?_
      ⟨_, rfl⟩).map pure
    rw [Call.fault?, hx, hy, Option.bind_some, Option.bind_some]

variable {w : World α} {c : Character α} {asked : Call α} {error : CallError α}

theorem invoke_eq_error_iff : c.invoke w asked = .error error ↔ asked.firstFault? = some error :=
  (guards_invoke w c asked).error_iff

theorem invoke_ok_iff : (∃ done, c.invoke w asked = .ok done) ↔ asked.firstFault? = none :=
  (guards_invoke w c asked).ok_iff

/-- A computation that changes a character bit by bit: what has been written stays, even if it fails
in the end. -/
abbrev InPlace (α : Type) := ExceptT (CallError α) (StateM (Logged (Event α) (Character α)))

namespace InPlace

variable {β : Type}

omit [Scalar α] in
def check (x : Except (CallError α) β) : InPlace α β := ExceptT.mk (pure x)

omit [Scalar α] in
def write (f : Character α → Logged (Event α) (Character α)) : InPlace α Unit :=
  modify fun s => s >>= f

omit [Scalar α] in
def draw (bound : Nat) : InPlace α Nat := do
  let s ← get
  let (drawn, dice) := s.value.dice.below bound
  set { s with value := { s.value with dice } }
  return drawn

omit [Scalar α] in
/-- The computation ends as the result says: with the character and the events of that, or with
nothing written. -/
def Yields (x : InPlace α Unit) (s : Logged (Event α) (Character α))
    (y : Except (CallError α) (Logged (Event α) (Character α))) : Prop :=
  x.run.run s =
    match y with
    | .ok done => (.ok (), ⟨done.value, s.events ++ done.events⟩)
    | .error error => (.error error, s)

variable {s : Logged (Event α) (Character α)}

omit [Scalar α] in
theorem Yields.check {x : Except (CallError α) β} {f : β → InPlace α Unit}
    {g : β → Except (CallError α) (Logged (Event α) (Character α))}
    (h : ∀ y, x = .ok y → Yields (f y) s (g y)) : Yields (InPlace.check x >>= f) s (x >>= g) := by
  cases x with
  | error error => rfl
  | ok y => exact h y rfl

omit [Scalar α] in
theorem yields_write (f : Character α → Logged (Event α) (Character α)) :
    Yields (write f) s (.ok (f s.value)) := rfl

end InPlace

open InPlace in
/-- A call that does its work on the character itself, its checks and its changes in the order in
which they come. -/
def invokeInPlace (w : World α) (asked : Call α) : InPlace α Unit :=
  match asked.action with
  | .walk d => do
    let count ← check (asked.number? 0)
    write fun c => pure (c.walk w.grid d (count.getD (Scalar.ofInt 1)))
  | .shake axis => do
    let power ← check (asked.magnitude 0)
    let speed ← check (asked.magnitude 1)
    let duration ← check (asked.integer 2)
    write fun c => c.startShake axis power speed (toCoordinate duration)
  | .fade ramp => do
    let duration ← check (asked.number 0)
    let blocks ← check (asked.truth 1)
    check (if Scalar.Le duration Scalar.zero then .error (.nonPositiveDuration duration) else .ok ())
    write fun c =>
      let fade := Fade.lasting ramp duration w.settings.opacitySpan blocks
      ⟨{ c with motion := { c.motion with fade } }, [.fadeStarted ramp duration fade.step blocks]⟩
  | .actorImage => do
    let id ← check (asked.integer 0)
    write fun c => c.showActor w.roster id
  | .memberImage => do
    let slot ← check (asked.integer 0)
    write fun c => c.showMember w.roster slot
  | .approach => do
    let x ← check (asked.integer 0)
    let y ← check (asked.integer 1)
    write fun c => pure (c.approach w.grid ⟨toCoordinate x, toCoordinate y⟩)
  | .randomWait => do
    let least ← check (asked.integer 0)
    let limit ← check (asked.integer 1)
    check (if limit ≤ least then .error (.emptyRange least limit) else .ok ())
    let drawn ← draw (toIdentifier (limit - least)).toNat
    write fun c =>
      pure (c.mapPlayback fun p => { p with wait := toCount (toIdentifier (least + drawn)) })

open InPlace in
/-- A call in place does what the call does, and has written nothing when it fails. -/
theorem yields_invokeInPlace (w : World α) (asked : Call α)
    (s : Logged (Event α) (Character α)) :
    (invokeInPlace w asked).Yields s (s.value.invoke w asked) := by
  cases ha : asked.action with
  | walk d =>
    simp only [invokeInPlace, invoke, ha]
    exact .check fun count _ => yields_write _
  | shake axis =>
    simp only [invokeInPlace, invoke, ha]
    exact .check fun power _ => .check fun speed _ => .check fun duration _ => yields_write _
  | fade ramp =>
    simp only [invokeInPlace, invoke, ha]
    refine .check fun duration _ => .check fun blocks _ => ?_
    unfold startFade
    by_cases hp : Scalar.Le duration Scalar.zero
    · rw [if_pos hp, if_pos hp]
      rfl
    · rw [if_neg hp, if_neg hp]
      exact yields_write _
  | actorImage =>
    simp only [invokeInPlace, invoke, ha]
    exact .check fun id _ => yields_write _
  | memberImage =>
    simp only [invokeInPlace, invoke, ha]
    exact .check fun slot _ => yields_write _
  | approach =>
    simp only [invokeInPlace, invoke, ha]
    exact .check fun x _ => .check fun y _ => yields_write _
  | randomWait =>
    simp only [invokeInPlace, invoke, ha]
    refine .check fun least _ => .check fun limit _ => ?_
    unfold randomWait
    by_cases hr : limit ≤ least
    · rw [if_pos hr, if_pos hr]
      rfl
    · rw [if_neg hr, if_neg hr]
      rfl

/-- Nothing has come of a call but its error. A tick that runs it goes on from the character as it
was before, as after a command that asks for nothing. -/
structure Refused (w : World α) (c : Character α) (asked : Call α) (error : CallError α) : Prop where
  untouched : ∀ events, (invokeInPlace w asked).run.run ⟨c, events⟩ = (.error error, ⟨c, events⟩)
  request : c.request w (.call asked) = pure c
  perform : c.perform w (.call asked) = ⟨c, [.callFailed c.label c.playback.cursor asked error]⟩
  passed : ∀ r, c.ready = true → c.playback.route? = some r →
    r.command? c.playback.cursor = some (.call asked) → c.motion.progress.signal = .advance →
      c.tick w =
        ⟨({ c with
            motion := { c.motion with progress := .start }
            playback :=
              { c.playback with
                stepped := true
                cursor := nextCursor r c.playback.cursor } } : Character α).frame,
          [.callFailed c.label c.playback.cursor asked error]⟩
  held : ∀ r, c.ready = true → c.playback.route? = some r →
    r.command? c.playback.cursor = some (.call asked) → c.motion.progress.signal = .hold →
      c.tick w =
        ⟨({ c with
            motion := { c.motion with progress := c.motion.progress.take }
            playback := { c.playback with stepped := true } } : Character α).frame,
          [.callFailed c.label c.playback.cursor asked error]⟩

/-- Whether a call is refused does not depend on the character. -/
theorem perform_of_error (h : asked.firstFault? = some error) (d : Character α) :
    d.perform w (.call asked) = ⟨d, [.callFailed d.label d.playback.cursor asked error]⟩ := by
  have hd : d.invoke w asked = .error error := invoke_eq_error_iff.mpr h
  simp only [perform, hd]

/-- Behind a call that is refused the tick goes on from the character as it was. -/
theorem tick_of_error (h : asked.firstFault? = some error) (hready : c.ready = true) {r : Route α}
    (hr : c.playback.route? = some r) (hc : r.command? c.playback.cursor = some (.call asked)) :
    c.tick w =
      ⟨c.attempt.advance.value.frame,
        .callFailed c.label c.playback.cursor asked error :: c.attempt.advance.events⟩ := by
  have hcall : Command.call asked ≠ .finish := by
    intro hf
    cases hf
  unfold tick
  rw [follow_of_ready hready hr hc hcall, perform_of_error h]
  exact congrArg (Logged.mk _) (List.append_nil _)

theorem refused (h : c.invoke w asked = .error error) : Refused w c asked error := by
  have hfault := invoke_eq_error_iff.mp h
  refine { untouched := ?untouched, request := ?request, perform := perform_of_error hfault c,
           passed := ?passed, held := ?held }
  case untouched =>
    intro events
    have hyields := yields_invokeInPlace w asked ⟨c, events⟩
    unfold InPlace.Yields at hyields
    rw [h] at hyields
    exact hyields
  case request =>
    simp only [Character.request, h]
    rfl
  case passed =>
    intro r hready hr hc hs
    have hadvance := advance_of_letsGo (c := c.attempt) hr ⟨hs, rfl⟩
    have hstart : c.motion.progress.resetMoves = .start := by
      unfold Progress.resetMoves
      rw [hs]
      rfl
    rw [tick_of_error hfault hready hr hc, hadvance, ← hstart]
    rfl
  case held =>
    intro r hready hr hc hs
    have hadvance := advance_of_hold (c := c.attempt) hs
    rw [tick_of_error hfault hready hr hc, hadvance]
    rfl

/-- What becomes of a call. One that names a picture that there is not runs, and shows nothing. -/
structure Answers (w : World α) (c : Character α) (asked : Call α) : Prop where
  runs_iff : (∃ done, c.invoke w asked = .ok done) ↔ asked.Usable
  error_iff : ∀ error, c.invoke w asked = .error error ↔ asked.firstFault? = some error
  refused : ∀ error, c.invoke w asked = .error error → Refused w c asked error
  unknownActor : ∀ id, asked.action = .actorImage → asked.Reads 0 id →
    w.roster.portrait? (Exact.finite id).truncate = none →
      c.invoke w asked = .ok ⟨c, [.actorImageMissing c.label (Exact.finite id).truncate]⟩
  unknownMember : ∀ slot, asked.action = .memberImage → asked.Reads 0 slot →
    w.roster.memberPortrait? (Exact.finite slot).truncate = none →
      c.invoke w asked = .ok ⟨c, [.memberImageMissing c.label (Exact.finite slot).truncate]⟩

/-- A call runs exactly if its arguments can be used; otherwise the first check that finds a fault
decides about the error, and nothing else has happened. -/
theorem invoke_all_or_nothing [Counting α] (w : World α) (c : Character α) (h : asked.Finite) :
    Answers w c asked where
  runs_iff := invoke_ok_iff.trans (Call.firstFault?_eq_none_iff h)
  error_iff _ := invoke_eq_error_iff
  refused _ := refused
  unknownActor id ha hid hmissing := by
    simp only [invoke, ha, hid.integer]
    change Except.ok (c.showPortrait (w.roster.portrait? _) _) = _
    rw [hmissing]
    rfl
  unknownMember slot ha hslot hmissing := by
    simp only [invoke, ha, hslot.integer]
    change Except.ok (c.showPortrait (w.roster.memberPortrait? _) _) = _
    rw [hmissing]
    rfl

def booth : World Float where
  grid := ⟨1, 1, .ofList [true]⟩
  roster := {}
  lexicon := .standard
  settings := Settings.standard

/-- The speed is negative, and the duration, which is not looked at any more, is none. -/
def fumble : Call Float := ⟨.shake .vertical, [.number 5, .number (-1), .word "long"]⟩

def act : Route Float := { commands := [.call fumble, .turn .left] }

def juggler : Character Float :=
  (placed "juggler" (Body.standing ⟨0, 0⟩ 0 0) booth.settings).play (some (act.compile booth.lexicon))

theorem invoke_all_or_nothing_juggler :
    fumble.Finite ∧ Answers booth juggler fumble ∧
      juggler.invoke booth fumble = .error (.negative (.shake .vertical) 1 (-1)) ∧
        ¬ fumble.Usable ∧ (juggler.tick booth).value.playback.cursor = 1 ∧
          (juggler.tick booth).events =
            [.callFailed "juggler" 0 fumble (.negative (.shake .vertical) 1 (-1))] := by
  have hfinite : fumble.Finite := by
    intro x hx
    simp only [fumble, List.mem_cons, Arg.number.injEq, reduceCtorEq, List.not_mem_nil, or_false]
      at hx
    rcases hx with rfl | rfl <;> decide +kernel
  have h := invoke_all_or_nothing booth juggler hfinite
  have hfault : fumble.firstFault? = some (.negative (.shake .vertical) 1 (-1)) := by
    have hpower : ¬ Scalar.Lt (5 : Float) Scalar.zero := by decide +kernel
    have hspeed : Scalar.Lt (-1 : Float) Scalar.zero := by decide +kernel
    simp [Call.firstFault?, fumble, Action.checks, Call.fault?, Call.value?, hpower, hspeed]
  have herror := (h.error_iff _).mpr hfault
  have htick := (h.refused _ herror).passed (act.compile booth.lexicon) (by decide +kernel) rfl
    (by decide +kernel) (by decide)
  refine ⟨hfinite, h, herror, fun hu => ?_, ?_, ?_⟩
  · obtain ⟨done, hdone⟩ := h.runs_iff.mpr hu
    cases hdone.symm.trans herror
  · rw [htick, playback_frame]
    decide +kernel
  · rw [htick]
    rfl

/-- Both limits are beyond every identifier: they are far apart, but the wait takes each of them for
the greatest identifier, and the range between them is empty. -/
def vast : Call Float := ⟨.randomWait, [.number 1e19, .number 1e20]⟩

theorem vast_wait_refused :
    vast.Reads 0 (10000000000000000000 : Int) ∧ vast.Reads 1 (100000000000000000000 : Int) ∧
      (10000000000000000000 : Int) < 100000000000000000000 ∧
        juggler.invoke booth vast =
          .error (.emptyRange 9223372036854775807 9223372036854775807) := by
  have hleast : Scalar.exact (1e19 : Float) = .finite (10000000000000000000 : Int) := by
    decide +kernel
  have hlimit : Scalar.exact (1e20 : Float) = .finite (100000000000000000000 : Int) := by
    decide +kernel
  refine ⟨⟨_, rfl, hleast⟩, ⟨_, rfl, hlimit⟩, by decide, invoke_eq_error_iff.mpr ?_⟩
  have hl : (Exact.finite (10000000000000000000 : Int)).truncate = 9223372036854775807 := by
    decide +kernel
  have hu : (Exact.finite (100000000000000000000 : Int)).truncate = 9223372036854775807 := by
    decide +kernel
  simp only [Call.firstFault?, vast, Action.checks, List.findSome?_cons, Call.fault?, Call.value?,
    List.getElem?_cons_zero, List.getElem?_cons_succ, Option.bind_some, hleast, hlimit, hl, hu,
    Int.le_refl, if_true]

end Character

end TileRoute
