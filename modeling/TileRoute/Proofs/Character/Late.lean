import TileRoute.Proofs.Character.Turn
import TileRoute.Proofs.Character.Unseen

/-!
# Looking up script lines late

A route is compiled when it is installed or forced. The late player below is the same character, but
it keeps routes as they were written, and looks a script line up each time that it comes to it.
After every run of operations both are in the same state: they differ in nothing but the form of the
routes that they keep.
-/

namespace TileRoute

variable {α : Type} [Scalar α]

namespace Character

/-- Runs a command. A script line is looked up now, and handed on if the lexicon has no call. -/
def performLate (w : World α) (c : Character α) : Command α → Logged (Event α) (Character α)
  | .script text =>
    match w.lexicon.read? text with
    | some call => c.perform w (.call call)
    | none => ⟨c, [.scriptPassed c.label text]⟩
  | command => c.perform w command

def followRouteBy (run : Character α → Command α → Logged (Event α) (Character α))
    (c : Character α) (r : Route α) : Logged (Event α) (Character α) :=
  if 0 < c.playback.wait then pure (c.mapPlayback fun p => { p with wait := p.wait - 1 })
  else
    let c := c.mapPlayback fun p => { p with stepped := true }
    match r.command? c.playback.cursor with
    | none => c.endRoute r
    | some .finish => c.endRoute r
    | some command => do
      let c ← run c command
      c.advance

def followBy (run : Character α → Command α → Logged (Event α) (Character α))
    (c : Character α) : Logged (Event α) (Character α) :=
  if c.stopping then
    match c.playback.route? with
    | some r => c.followRouteBy run r
    | none => pure c
  else pure c

def tickBy (run : Character α → Command α → Logged (Event α) (Character α)) (c : Character α) :
    Logged (Event α) (Character α) := do
  let c ← c.followBy run
  pure c.frame

def installLate (c : Character α) : Option (Route α) → Logged (Event α) (Character α)
  | none => pure (c.play none)
  | some r => ⟨c.play (some r), [.routeInstalled c.label r.length r.repeats]⟩

def forceLate (c : Character α) : Option (Route α) → Logged (Event α) (Character α)
  | none => ⟨c, [.forcedRouteMissing c.label]⟩
  | some r => ⟨c.playForced r, [.routeForced c.label r.length r.awaited]⟩

def operateLate (w : World α) (c : Character α) :
    Operation α → Logged (Event α) (Character α)
  | .install route? => c.installLate route?
  | .force route? => c.forceLate route?
  | .tick => c.tickBy (performLate w)
  | .request asked => c.request w asked

def runLate (w : World α) : List (Operation α) → Character α → Logged (Event α) (Character α)
  | [], c => pure c
  | op :: ops, c => do
    let c ← c.operateLate w op
    runLate w ops c

end Character

/-- The route with all its script lines looked up. -/
def Route.resolve (l : Lexicon) (r : Route α) : Route α :=
  { r with commands := r.commands.map (Command.compile l), compiled := true }

namespace Route

theorem compile_eq_resolve {l : Lexicon} {r : Route α} (h : r.compiled = false) :
    r.compile l = r.resolve l := by
  simp only [compile, h, Bool.false_eq_true, if_false]
  rfl

theorem command?_resolve (l : Lexicon) (r : Route α) (i : Nat) :
    (r.resolve l).command? i = (r.command? i).map (Command.compile l) :=
  List.getElem?_map

end Route

theorem Command.compile_eq_finish_iff {l : Lexicon} {command : Command α} :
    command.compile l = .finish ↔ command = .finish := by
  cases command with
  | script text =>
    change (l.read? text).elim (Command.script text) Command.call = .finish ↔ _
    cases (l.read? text : Option (Call α)) with
    | none => exact Iff.rfl
    | some call => exact ⟨fun h => (by cases h), fun h => (by cases h)⟩
  | finish => exact Iff.rfl
  | step d => exact Iff.rfl
  | turn d => exact Iff.rfl
  | wait frames => exact Iff.rfl
  | call call => exact Iff.rfl

theorem Route.cycleLength_resolve (l : Lexicon) (r : Route α) :
    (r.resolve l).cycleLength = r.cycleLength := by
  have hlast : (r.resolve l).commands.getLast? = r.commands.getLast?.map (Command.compile l) :=
    List.getLast?_map
  apply Route.cycleLength_add (k := 0)
  · exact List.length_map _
  · rw [hlast, Option.map_eq_some_iff]
    constructor
    · rintro ⟨command, hc, hf⟩
      rw [hc, Command.compile_eq_finish_iff.mp hf]
    · intro he
      exact ⟨.finish, he, rfl⟩

namespace Character

/-- The same character with its routes compiled. -/
def resolved (l : Lexicon) (c : Character α) : Character α :=
  c.mapPlayback fun p =>
    { p with
      route? := p.route?.map (Route.resolve l)
      saved? := p.saved?.map fun s => { s with route? := s.route?.map (Route.resolve l) } }

def resolvedBy (l : Lexicon) (x : Logged (Event α) (Character α)) :
    Logged (Event α) (Character α) := ⟨x.value.resolved l, x.events⟩

section Resolved

variable (l : Lexicon) (c : Character α)

/-- No command sees whether the routes are compiled. -/
theorem unseen_resolve : Playback.Unseen fun p : Playback α =>
    { p with
      route? := p.route?.map (Route.resolve l)
      saved? := p.saved?.map fun s => { s with route? := s.route?.map (Route.resolve l) } } where
  insists p := by
    show (p.route?.map (Route.resolve l)).any _ = p.route?.any _
    cases p.route? <;> rfl
  stepped _ _ := rfl
  wait _ _ := rfl

theorem resolvedBy_eq (x : Logged (Event α) (Character α)) : resolvedBy l x = resolved l <$> x := by
  apply Logged.ext_fields
  · rfl
  · exact (Logged.events_map (resolved l) x).symm

theorem bind_resolvedBy {x : Logged (Event α) (Character α)}
    {f g : Character α → Logged (Event α) (Character α)}
    (h : ∀ d, f (d.resolved l) = resolvedBy l (g d)) :
    resolvedBy l x >>= f = resolvedBy l (x >>= g) := by
  have hx : f (resolvedBy l x).value = resolvedBy l (g x.value) := h x.value
  refine Logged.ext_fields ?_ ?_
  · rw [Logged.value_bind, hx]
    rfl
  · rw [Logged.events_bind, hx]
    rfl

theorem invoke_resolved (w : World α) (call : Call α) :
    (c.resolved l).invoke w call = resolvedBy l <$> c.invoke w call := by
  have hf : resolvedBy l = (resolved l <$> · : Logged (Event α) (Character α) → _) :=
    funext (resolvedBy_eq l)
  rw [hf]
  exact invoke_mapPlayback (unseen_resolve l) w c call

theorem perform_call_resolved (w : World α) (call : Call α) :
    (c.resolved l).perform w (.call call) = resolvedBy l (c.perform w (.call call)) := by
  simp only [perform, invoke_resolved]
  cases c.invoke w call <;> rfl

/-- A compiled command does what the command as it was written does late. -/
theorem perform_resolved (w : World α) (command : Command α) :
    (c.resolved w.lexicon).perform w (command.compile w.lexicon) =
      resolvedBy w.lexicon (c.performLate w command) := by
  cases command with
  | script text =>
    -- Both look the same text up, now or at the installation; a call then runs as it does anyway.
    simp only [Command.compile, performLate]
    cases (w.lexicon.read? text : Option (Call α)) with
    | none => rfl
    | some call => exact perform_call_resolved w.lexicon c w call
  | call call => exact perform_call_resolved w.lexicon c w call
  | finish => rfl
  | step d => rfl
  | turn d => rfl
  | wait frames => rfl

theorem restore_resolved : (c.resolved l).restore = c.restore.resolved l := by
  have hs : (c.resolved l).playback.saved? =
      c.playback.saved?.map fun s => { s with route? := s.route?.map (Route.resolve l) } := rfl
  simp only [restore, hs]
  cases c.playback.saved? <;> rfl

theorem finish_resolved : (c.resolved l).finish = resolvedBy l c.finish := by
  have hf : (c.resolved l).playback.forcing = c.playback.forcing := rfl
  have hsome : (c.restore.resolved l).playback.route?.isSome =
      c.restore.playback.route?.isSome := Option.isSome_map
  simp only [finish, hf, restore_resolved, hsome]
  split <;> rfl

theorem nextCursor_resolve (r : Route α) (i : Nat) :
    nextCursor (r.resolve l) i = nextCursor r i := by
  unfold nextCursor
  rw [Route.cycleLength_resolve]
  rfl

theorem moveCursor_resolved : (c.resolved l).moveCursor = c.moveCursor.resolved l := by
  have hq : (c.resolved l).playback.route? = c.playback.route?.map (Route.resolve l) := rfl
  cases hr : c.playback.route? with
  | none =>
    rw [hr] at hq
    simp only [moveCursor, hr, hq, Option.map_none]
  | some r =>
    rw [hr] at hq
    have hstep : ((c.resolved l).playback.stepped || (r.resolve l).skippable) =
        (c.playback.stepped || r.skippable) := rfl
    cases hg : c.playback.stepped || r.skippable with
    | false => rw [moveCursor_again hq (hstep.trans hg), moveCursor_again hr hg]
    | true =>
      rw [moveCursor_on hq (hstep.trans hg), moveCursor_on hr hg]
      simp only [nextCursor_resolve]
      rfl

theorem advance_resolved : (c.resolved l).advance = resolvedBy l c.advance := by
  have ht : (c.resolved l).mapProgress Progress.take =
      (c.mapProgress Progress.take).resolved l := rfl
  have hm : (c.resolved l).motion = c.motion := rfl
  simp only [advance, hm, ht, moveCursor_resolved, finish_resolved]
  cases c.motion.progress.signal <;> rfl

theorem endRoute_resolved (r : Route α) :
    (c.resolved l).endRoute (r.resolve l) = resolvedBy l (c.endRoute r) := by
  have hrep : (r.resolve l).repeats = r.repeats := rfl
  simp only [endRoute, hrep, finish_resolved]
  split <;> rfl

end Resolved

section Follow

variable {w : World α} {c : Character α} {r : Route α} {command : Command α}
  {run : Character α → Command α → Logged (Event α) (Character α)}

omit [Scalar α] in
theorem followRouteBy_ending (hw : c.playback.wait = 0)
    (he : r.command? c.playback.cursor = none ∨ r.command? c.playback.cursor = some .finish) :
    c.followRouteBy run r = c.attempt.endRoute r := by
  have hz : ¬ 0 < c.playback.wait := by omega
  simp only [followRouteBy, if_neg hz]
  split
  · rfl
  · rfl
  · rename_i command hf hc
    rcases he with he | he
    · cases hc.symm.trans he
    · exact absurd (hc.symm.trans he) (fun h => hf (Option.some.inj h))

omit [Scalar α] in
theorem followRouteBy_running (hw : c.playback.wait = 0)
    (hc : r.command? c.playback.cursor = some command) (hf : command ≠ .finish) :
    c.followRouteBy run r = run c.attempt command >>= advance := by
  have hz : ¬ 0 < c.playback.wait := by omega
  simp only [followRouteBy, if_neg hz]
  split
  · rename_i hn
    cases hc.symm.trans hn
  · rename_i hn
    exact absurd (Option.some.inj (hc.symm.trans hn)) hf
  · rename_i other _ ho
    cases hc.symm.trans ho
    rfl

/-- The way commands are run is all that sets the late player's tick apart. -/
theorem followRouteBy_perform (w : World α) (c : Character α) (r : Route α) :
    c.followRouteBy (perform w) r = c.followRoute w r := rfl

theorem followRoute_resolved (w : World α) (c : Character α) (r : Route α) :
    (c.resolved w.lexicon).followRoute w (r.resolve w.lexicon) =
      resolvedBy w.lexicon (c.followRouteBy (performLate w) r) := by
  have ha : (c.resolved w.lexicon).attempt = c.attempt.resolved w.lexicon := rfl
  have hat : (r.resolve w.lexicon).command? (c.resolved w.lexicon).playback.cursor =
      (r.command? c.playback.cursor).map (Command.compile w.lexicon) :=
    r.command?_resolve w.lexicon c.playback.cursor
  rw [← followRouteBy_perform]
  rcases Nat.eq_zero_or_pos c.playback.wait with hw | hw
  · have hwr : (c.resolved w.lexicon).playback.wait = 0 := hw
    cases hc : r.command? c.playback.cursor with
    | none =>
      rw [hc] at hat
      rw [followRouteBy_ending hwr (.inl hat), followRouteBy_ending hw (.inl hc), ha,
        endRoute_resolved]
    | some command =>
      rw [hc, Option.map_some] at hat
      by_cases hf : command = .finish
      · rw [hf] at hc
        rw [hf, Command.compile_eq_finish_iff.mpr rfl] at hat
        rw [followRouteBy_ending hwr (.inr hat), followRouteBy_ending hw (.inr hc), ha,
          endRoute_resolved]
      · have hf' : command.compile w.lexicon ≠ .finish := fun he =>
          hf (Command.compile_eq_finish_iff.mp he)
        rw [followRouteBy_running hwr hat hf', followRouteBy_running hw hc hf, ha,
          perform_resolved]
        exact bind_resolvedBy w.lexicon fun d => advance_resolved w.lexicon d
  · have hp : 0 < (c.resolved w.lexicon).playback.wait := hw
    simp only [followRouteBy, if_pos hw, if_pos hp]
    rfl

theorem follow_resolved (w : World α) (c : Character α) :
    (c.resolved w.lexicon).follow w =
      resolvedBy w.lexicon (c.followBy (performLate w)) := by
  have hs : (c.resolved w.lexicon).stopping = c.stopping := rfl
  have hq : (c.resolved w.lexicon).playback.route? =
      c.playback.route?.map (Route.resolve w.lexicon) := rfl
  simp only [follow, followBy, hs, hq]
  cases c.stopping with
  | false => rfl
  | true =>
    cases c.playback.route? with
    | none => rfl
    | some r => exact followRoute_resolved w c r

theorem frame_resolved (l : Lexicon) (c : Character α) :
    (c.resolved l).frame = c.frame.resolved l := frame_mapPlayback _ c

theorem tick_resolved (w : World α) (c : Character α) :
    (c.resolved w.lexicon).tick w = resolvedBy w.lexicon (c.tickBy (performLate w)) := by
  refine Logged.ext_fields ?_ ?_
  · rw [value_tick, follow_resolved]
    exact frame_resolved w.lexicon (c.followBy (performLate w)).value
  · rw [events_tick, follow_resolved]
    exact (List.append_nil _).symm

end Follow

theorem request_resolved (l : Lexicon) (w : World α) (c : Character α) (asked : Request α) :
    (c.resolved l).request w asked = resolvedBy l (c.request w asked) := by
  rw [resolvedBy_eq]
  exact request_mapPlayback (unseen_resolve l) w c asked

end Character

/-- The routes of the operation have not been compiled before. -/
def Operation.Raw : Operation α → Prop
  | .install (some r) | .force (some r) => r.compiled = false
  | _ => True

namespace Character

theorem playForced_resolved (l : Lexicon) (c : Character α) (r : Route α) :
    (c.resolved l).playForced (r.resolve l) = (c.playForced r).resolved l := by
  have hk : (c.resolved l).keptAside =
      { c.keptAside with route? := c.keptAside.route?.map (Route.resolve l) } := by
    have hs : (c.resolved l).playback.saved? =
        c.playback.saved?.map fun s => { s with route? := s.route?.map (Route.resolve l) } := rfl
    simp only [keptAside, hs]
    cases c.playback.saved? <;> rfl
  simp only [playForced, hk]
  rfl

theorem operate_resolved {w : World α} (c : Character α) {op : Operation α} (h : op.Raw) :
    ((c.resolved w.lexicon).operate w op).value =
        (c.operateLate w op).value.resolved w.lexicon ∧
      Event.scripts ((c.resolved w.lexicon).operate w op).events =
        Event.scripts (c.operateLate w op).events := by
  cases op with
  | tick =>
    change ((c.resolved w.lexicon).tick w).value = _ ∧
      Event.scripts ((c.resolved w.lexicon).tick w).events = _
    rw [tick_resolved]
    exact ⟨rfl, rfl⟩
  | request asked =>
    change ((c.resolved w.lexicon).request w asked).value = _ ∧
      Event.scripts ((c.resolved w.lexicon).request w asked).events = _
    rw [request_resolved]
    exact ⟨rfl, rfl⟩
  | install route? =>
    refine ⟨?_, ?_⟩
    · cases route? with
      | none => rfl
      | some r =>
        change ((c.resolved w.lexicon).install w.lexicon (some r)).value = _
        rw [value_install, Option.map_some, Route.compile_eq_resolve h]
        rfl
    · refine (scripts_install w.lexicon _ route?).trans ?_
      cases route? <;> rfl
  | force route? =>
    refine ⟨?_, ?_⟩
    · cases route? with
      | none => rfl
      | some r =>
        change ((c.resolved w.lexicon).force w.lexicon (some r)).value = _
        rw [value_force_some, Route.compile_eq_resolve h]
        exact playForced_resolved w.lexicon c r
    · refine (scripts_force w.lexicon _ route?).trans ?_
      cases route? <;> rfl

theorem run_resolved {w : World α} {c : Character α} {ops : List (Operation α)}
    (h : ∀ op ∈ ops, op.Raw) :
    ((c.resolved w.lexicon).run w ops).value = (c.runLate w ops).value.resolved w.lexicon ∧
      Event.scripts ((c.resolved w.lexicon).run w ops).events =
        Event.scripts (c.runLate w ops).events := by
  -- Induction on the operations: what the first of them leads to is a late player again.
  induction ops generalizing c with
  | nil => exact ⟨rfl, rfl⟩
  | cons op ops ih =>
    obtain ⟨hv, he⟩ := operate_resolved (w := w) c (h op (List.mem_cons_self ..))
    obtain ⟨hvs, hes⟩ := ih (c := (c.operateLate w op).value) fun o ho =>
      h o (List.mem_cons_of_mem _ ho)
    rw [← hv] at hvs hes
    refine ⟨hvs, ?_⟩
    change Event.scripts (((c.resolved w.lexicon).operate w op).events ++
        (((c.resolved w.lexicon).operate w op).value.run w ops).events) =
      Event.scripts ((c.operateLate w op).events ++
        ((c.operateLate w op).value.runLate w ops).events)
    rw [Event.scripts_append, Event.scripts_append, he, hes]

/-- Two players are in the same state, but for one having its routes compiled. -/
structure Agree (l : Lexicon) (early late : Logged (Event α) (Character α)) : Prop where
  body : early.value.body = late.value.body
  motion : early.value.motion = late.value.motion
  cursor : early.value.playback.cursor = late.value.playback.cursor
  forcing : early.value.playback.forcing = late.value.playback.forcing
  wait : early.value.playback.wait = late.value.playback.wait
  stepped : early.value.playback.stepped = late.value.playback.stepped
  dice : early.value.dice = late.value.dice
  route? : early.value.playback.route? = late.value.playback.route?.map (Route.resolve l)
  scripts : Event.scripts early.events = Event.scripts late.events

/-- A character that compiles its routes when it is given them plays as one that looks up each
script line when it comes to it. -/
theorem compiled_plays_as_written (w : World α) {c : Character α}
    (hr : c.playback.route? = none) (hs : c.playback.saved? = none) (ops : List (Operation α))
    (h : ∀ op ∈ ops, op.Raw) : Agree w.lexicon (c.run w ops) (c.runLate w ops) := by
  have hc : c.resolved w.lexicon = c := by
    simp only [resolved, mapPlayback, hr, hs, Option.map_none]
    rw [← hr, ← hs]
  obtain ⟨hv, he⟩ := run_resolved (w := w) (c := c) h
  rw [hc] at hv he
  refine ⟨?_, ?_, ?_, ?_, ?_, ?_, ?_, ?_, he⟩ <;> rw [hv] <;> rfl

def lane : World Float where
  grid := ⟨2, 1, .ofList [true, true]⟩
  roster := {}
  lexicon := .standard
  settings := { Settings.standard with seed? := some 3 }

def herald : Character Float :=
  placed "herald" (Body.standing ⟨0, 0⟩ 0 0) lane.settings

/-- A step and a proclamation, with a rest forced in between. -/
def errand : List (Operation Float) :=
  [.install (some { commands := [.script "move_r", .script "hear ye"] }), .tick,
    .force (some { commands := [.script "RANDOM_WAIT 1 2"] }), .tick, .tick, .tick, .tick]

theorem compiled_plays_as_written_herald :
    herald.playback.route? = none ∧ herald.playback.saved? = none ∧
      (∀ op ∈ errand, op.Raw) ∧
        (herald.runLate lane errand).value.body.position = ⟨1, 0⟩ ∧
          Event.scripts (herald.runLate lane errand).events = [("herald", "hear ye")] := by
  have hraw : ∀ op ∈ errand, op.Raw := by
    intro op ho
    simp only [errand, List.mem_cons, List.not_mem_nil, or_false] at ho
    rcases ho with rfl | rfl | rfl | rfl | rfl | rfl | rfl
    · rfl
    · exact trivial
    · rfl
    all_goals exact trivial
  have h := compiled_plays_as_written lane (c := herald) rfl rfl errand hraw
  refine ⟨rfl, rfl, hraw, ?_, ?_⟩
  · rw [← h.body]
    decide +kernel
  · rw [← h.scripts]
    decide +kernel

end Character

end TileRoute
