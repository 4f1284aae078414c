import TileRoute.Proofs.Character.Course
import TileRoute.Proofs.Character.Operation
import TileRoute.Proofs.Route.Journey

/-!
# Delivery of script lines

The lines of a route are those of its commands up to the first finish command. After an installation
the ticks hand them on in order, once or over and over, however the commands in between are blocked,
waited for or left out: while the route is installed, what has been handed on is so many whole
passes and the lines of the commands before the cursor.
-/

namespace TileRoute

variable {α : Type}

namespace Route

def lines (r : Route α) : List String := r.stretch.filterMap Command.line?

def linesOver (r : Route α) (passes : Nat) : List String := (List.replicate passes r.lines).flatten

/-- The lines of the commands before a cursor. -/
def linesBefore (r : Route α) (cursor : Nat) : List String :=
  (r.stretch.take cursor).filterMap Command.line?

theorem linesOver_succ (r : Route α) (passes : Nat) :
    r.linesOver (passes + 1) = r.linesOver passes ++ r.lines := by
  simp only [linesOver, List.replicate_succ', List.flatten_append, List.flatten_singleton]

theorem linesBefore_length (r : Route α) : r.linesBefore r.stretch.length = r.lines := by
  rw [linesBefore, List.take_length, lines]

theorem linesBefore_succ {r : Route α} {i : Nat} {command : Command α}
    (h : r.stretch[i]? = some command) :
    r.linesBefore (i + 1) = r.linesBefore i ++ command.line?.toList := by
  rw [linesBefore, List.take_add_one, h, List.filterMap_append]
  cases hl : command.line? with
  | none => simp only [Option.toList_some, List.filterMap_cons, hl, List.filterMap_nil]; rfl
  | some text => simp only [Option.toList_some, List.filterMap_cons, hl, List.filterMap_nil]; rfl

theorem linesBefore_prefix (r : Route α) (i : Nat) : r.linesBefore i <+: r.lines := by
  refine ⟨(r.stretch.drop i).filterMap Command.line?, ?_⟩
  rw [linesBefore, lines, ← List.filterMap_append, List.take_append_drop]

theorem stretch_of_command {r : Route α} {i : Nat} {command : Command α}
    (hi : i ≤ r.stretch.length) (hc : r.command? i = some command) (hf : command ≠ .finish) :
    r.stretch[i]? = some command := by
  rcases Nat.lt_or_eq_of_le hi with hlt | rfl
  · have hs : r.stretch[i]? = some r.stretch[i] := List.getElem?_eq_getElem hlt
    have hsame := (command?_stretch hs).1.symm.trans hc
    rw [hs, hsame]
  · rcases r.command?_end with he | he
    · cases hc.symm.trans he
    · exact absurd (Option.some.inj (hc.symm.trans he)) hf

theorem eq_length_of_endsAt {r : Route α} {i : Nat} (hi : i ≤ r.stretch.length)
    (he : r.EndsAt i) : i = r.stretch.length := by
  rcases Nat.lt_or_eq_of_le hi with hlt | heq
  · obtain ⟨hc, hf⟩ := command?_stretch (List.getElem?_eq_getElem hlt)
    rcases he with he | he
    · cases hc.symm.trans he
    · exact absurd (Option.some.inj (hc.symm.trans he)) hf
  · exact heq

/-- A route that starts over goes through all commands before the first finish command. -/
theorem length_stretch_le (r : Route α) : r.stretch.length ≤ r.cycleLength := by
  obtain ⟨rest, hs, -⟩ := r.commands_stretch
  have hlen : r.length = r.stretch.length + rest.length := by
    rw [length, hs, List.length_append]
  unfold cycleLength
  split
  · rename_i hlast
    have hne : rest ≠ [] := by
      rintro rfl
      rw [hs, List.append_nil] at hlast
      have hm := List.mem_takeWhile_imp (List.mem_of_getLast? hlast)
      cases hm
    have hpos := List.length_pos_iff.mpr hne
    omega
  · omega

end Route

namespace Character

/-- What has been handed on since the installation of a route. -/
inductive Delivered (r : Route α) (texts : List String) (d : Character α) : Prop
  | midway (passes : Nat) (hr : d.playback.route? = some r) (hf : d.playback.forcing = false)
      (hs : d.motion.progress.signal = .advance) (hi : d.playback.cursor ≤ r.stretch.length)
      (hp : r.repeats = false → passes = 0)
      (ht : texts = r.linesOver passes ++ r.linesBefore d.playback.cursor)
  | ended (hr : d.playback.route? = none) (hrep : r.repeats = false) (ht : texts = r.lines)

variable {r : Route α} {texts : List String} {c d : Character α}

theorem linesOver_of_end {passes i : Nat} (h : i = r.stretch.length) :
    r.linesOver passes ++ r.linesBefore i = r.linesOver (passes + 1) ++ r.linesBefore 0 := by
  have hz : r.linesBefore 0 = [] := rfl
  rw [h, Route.linesBefore_length, hz, List.append_nil, Route.linesOver_succ]

theorem Delivered.onward {passes i : Nat} {command : Command α}
    (hr : d.playback.route? = some r) (hf : d.playback.forcing = false)
    (hs : d.motion.progress.signal = .advance) (hp : r.repeats = false → passes = 0)
    (hc : r.stretch[i]? = some command) (hi : d.playback.cursor = nextCursor r i)
    (ht : texts = r.linesOver passes ++ r.linesBefore i) :
    Delivered r (texts ++ command.line?.toList) d := by
  have hlt : i < r.stretch.length := (List.getElem?_eq_some_iff.mp hc).1
  have hle := r.length_stretch_le
  have hlines : texts ++ command.line?.toList = r.linesOver passes ++ r.linesBefore (i + 1) := by
    rw [ht, List.append_assoc, Route.linesBefore_succ hc]
  rcases nextCursor_cases r i with ⟨hz, hrep, hcycle⟩ | ⟨hsucc, -⟩
  · -- A cycle is never shorter than the pass, so the command was the last one of both.
    have hend : i + 1 = r.stretch.length := by omega
    refine .midway (passes + 1) hr hf hs (by omega) (fun hno => ?_) ?_
    · cases hrep.symm.trans hno
    · rw [hi, hz, hlines]
      exact linesOver_of_end hend
  · rw [hsucc] at hi
    refine .midway passes hr hf hs (by omega) hp ?_
    rw [hi]
    exact hlines

variable [Scalar α]

theorem Delivered.tick (w : World α) (h : Delivered r texts d) :
    ∃ more, Event.scripts (d.tick w).events = more.map (fun text => (d.label, text)) ∧
      Delivered r (texts ++ more) (d.tick w).value := by
  cases h with
  | ended hr hrep ht =>
    obtain ⟨hsame, -, hl⟩ := tick_free (w := w) hr
    refine ⟨[], hl, ?_⟩
    rw [List.append_nil]
    exact .ended (hsame.route?.trans hr) hrep ht
  | midway passes hr hf hs hi hp ht =>
    have hne : d.motion.progress.signal ≠ .abort := by
      rw [hs]
      decide
    -- A tick that leaves the cursor hands on nothing.
    have hstay : SamePlace d (d.tick w).value →
        (d.tick w).value.motion.progress.signal = .advance →
          Delivered r (texts ++ []) (d.tick w).value := by
      intro hsame hadv
      rw [List.append_nil]
      refine .midway passes (hsame.route?.trans hr) (hsame.forcing.trans hf) hadv ?_ hp ?_ <;>
        rw [hsame.cursor]
      · exact hi
      · exact ht
    cases course_tick w hr hne with
    | resting hl hsame hm =>
      exact ⟨[], hl, hstay hsame ((congrArg Progress.signal hm).trans hs)⟩
    | again command hc hl hsame hadv hn =>
      rw [hn hs] at hl
      exact ⟨[], hl, hstay hsame hadv⟩
    | onward command hc hfin hl hroute hcur hm =>
      refine ⟨command.line?.toList, ?_, ?_⟩
      · rw [hl, Option.toList_map]
      · exact .onward (hroute.route?.trans hr) (hroute.forcing.trans hf)
          (congrArg Progress.signal hm) hp (Route.stretch_of_command hi hc hfin) hcur ht
    | around he hl hroute hcur hm hrep =>
      refine ⟨[], hl, ?_⟩
      rw [List.append_nil]
      refine .midway (passes + 1) (hroute.route?.trans hr) (hroute.forcing.trans hf)
        ((congrArg Progress.signal hm).trans hs) ?_ (fun hno => ?_) ?_
      · rw [hcur]
        exact Nat.zero_le _
      · cases hrep.symm.trans hno
      · rw [hcur, ht]
        exact linesOver_of_end (Route.eq_length_of_endsAt hi he)
    | ended he hl hd _ _ hrep =>
      have hforced : d.attempt.playback.forcing = false := hf
      refine ⟨[], hl, ?_⟩
      rw [List.append_nil]
      refine .ended ?_ hrep ?_
      · rw [hd, finish_unforced hforced]
        rfl
      · rw [ht, hp hrep, Route.eq_length_of_endsAt hi he, Route.linesBefore_length]
        rfl

theorem Delivered.ticks (w : World α) (n : Nat) (h : Delivered r texts d) :
    ∃ more, Event.scripts (d.ticks w n).events = more.map (fun text => (d.label, text)) ∧
      Delivered r (texts ++ more) (d.ticks w n).value := by
  induction n generalizing texts d with
  | zero =>
    refine ⟨[], rfl, ?_⟩
    rw [List.append_nil]
    exact h
  | succ n ih =>
    obtain ⟨first, hl, hd⟩ := h.tick w
    obtain ⟨rest, hlr, hdr⟩ := ih hd
    refine ⟨first ++ rest, ?_, ?_⟩
    · change Event.scripts ((d.tick w).events ++ ((d.tick w).value.ticks w n).events) = _
      rw [Event.scripts_append, hl, hlr, label_tick, List.map_append]
    · rw [← List.append_assoc]
      exact hdr

omit [Scalar α] in
theorem delivered_play (r : Route α) (c : Character α) : Delivered r [] (c.play (some r)) := by
  refine .midway 0 rfl rfl rfl (Nat.zero_le _) (fun _ => rfl) ?_
  rfl

/-- After an installation the ticks hand on the lines of the route in order, none left out and none
twice, and all of them before a route that does not start over is gone. -/
theorem lines_in_order (w : World α) (c : Character α) (r : Route α) (n : Nat) :
    let q := r.compile w.lexicon
    let done := c.install w.lexicon (some r) >>= fun d => d.ticks w n
    ∃ texts, Event.scripts done.events = texts.map (fun text => (c.label, text)) ∧
      (q.repeats = false →
        texts <+: q.lines ∧ (done.value.playback.route? = none → texts = q.lines)) ∧
      (q.repeats = true → ∃ passes, texts <+: (List.replicate passes q.lines).flatten) ∧
      (done.value.playback.route? ≠ none →
        ∃ passes, texts = q.linesOver passes ++ q.linesBefore done.value.playback.cursor) := by
  intro q done
  obtain ⟨texts, hl, hd⟩ := (delivered_play q c).ticks w n
  rw [List.nil_append] at hd
  refine ⟨texts, ?_, ?_⟩
  · change Event.scripts ((c.install w.lexicon (some r)).events ++ _) = _
    rw [Event.scripts_append, scripts_install]
    exact hl
  · change Delivered q texts done.value at hd
    cases hd with
    | midway passes hr _ _ _ hp ht =>
      refine ⟨fun hrep => ⟨?_, fun hn => ?_⟩, fun _ => ⟨passes + 1, ?_⟩, fun _ => ⟨passes, ht⟩⟩
      · rw [ht, hp hrep]
        exact q.linesBefore_prefix _
      · cases hr.symm.trans hn
      · rw [ht]
        change _ <+: q.linesOver (passes + 1)
        rw [Route.linesOver_succ]
        exact (List.prefix_append_right_inj _).mpr (q.linesBefore_prefix _)
    | ended hr hrep ht =>
      refine ⟨fun _ => ⟨?_, fun _ => ht⟩, fun hno => ?_, fun hsome => absurd hr hsome⟩
      · exact ⟨[], by rw [List.append_nil, ht]⟩
      · cases hrep.symm.trans hno

def square : World Float where
  grid := ⟨1, 1, .ofList [true]⟩
  roster := {}
  lexicon := .standard
  settings := Settings.standard

def crier : Character Float := placed "crier" (Body.standing ⟨0, 0⟩ 0 0) square.settings

/-- A line, a call, a step that cannot be made, a wait, a line, and one more that stands too far
behind. -/
def rounds : Route Float where
  commands := [.script "hear ye", .script "shake_v 5 5 2", .step .up, .wait 3,
    .script "all is well", .finish, .script "unheard"]
  skippable := true

def proclaimed : Logged (Event Float) (Character Float) :=
  crier.install square.lexicon (some rounds) >>= fun c => c.ticks square 20

theorem lines_in_order_crier :
    (rounds.compile square.lexicon).lines = ["hear ye", "all is well"] ∧
      proclaimed.value.playback.route? = none ∧
        Event.scripts proclaimed.events = [("crier", "hear ye"), ("crier", "all is well")] := by
  have hlines : (rounds.compile square.lexicon).lines = ["hear ye", "all is well"] := by
    decide +kernel
  have hrepeats : (rounds.compile square.lexicon).repeats = false := by decide +kernel
  have hgone : proclaimed.value.playback.route? = none := by decide +kernel
  obtain ⟨texts, hscripts, honce, -, -⟩ := lines_in_order square crier rounds 20
  rw [← proclaimed] at hscripts honce
  have htexts := (honce hrepeats).2 hgone
  rw [htexts, hlines] at hscripts
  exact ⟨hlines, hgone, hscripts⟩

end Character

end TileRoute
