import Mathlib.Tactic.Linarith
import TileRoute.Proofs.Character.Command
import TileRoute.Proofs.Character.Operation

/-!
# Fades among other operations

A fade runs by itself. Whatever else is asked of the character while it runs, and whatever its route
does, an operation either starts another fade or leaves the one that is under way alone, and a tick
then takes it one step further. So only the number of ticks tells how far a fade has come. The
opacity is kept between two bounds at every step, but the steps are all alike, so that in exact
numbers this comes to the same as to keep the sum of the steps between them.
-/

namespace TileRoute

variable {α : Type}

namespace Event

def fade? : Event α → Option (Ramp × α × α × Bool)
  | fadeStarted ramp duration step blocks => some (ramp, duration, step, blocks)
  | _ => none

def fades (es : List (Event α)) : List (Ramp × α × α × Bool) := es.filterMap fade?

theorem fades_append (xs ys : List (Event α)) : fades (xs ++ ys) = fades xs ++ fades ys :=
  List.filterMap_append

end Event

namespace Character

variable [Scalar α] {w : World α} {c : Character α}

structure Spared (c d : Character α) : Prop where
  opacity : d.body.opacity = c.body.opacity
  fade : d.motion.fade = c.motion.fade

omit [Scalar α] in
theorem Spared.trans {b d : Character α} (h : Spared b c) (k : Spared c d) : Spared b d :=
  ⟨k.opacity.trans h.opacity, k.fade.trans h.fade⟩

/-- A fade has been started, or the one there was is left alone. -/
inductive Refades (span : α) (c : Character α) (done : Logged (Event α) (Character α)) : Prop
  | kept (hs : Spared c done.value) (he : Event.fades done.events = [])
  | started (ramp : Ramp) (duration : α) (blocks : Bool)
      (hd : ¬ Scalar.Le duration Scalar.zero)
      (ho : done.value.body.opacity = c.body.opacity)
      (hf : done.value.motion.fade = Fade.lasting ramp duration span blocks)
      (he : Event.fades done.events =
        [(ramp, duration, (Fade.lasting ramp duration span blocks).step, blocks)])

omit [Scalar α] in
theorem spared_stepIn (g : Grid) (c : Character α) (d : Direction) : Spared c (c.stepIn g d) := by
  refine ⟨?_, rfl⟩
  change (c.body.step g d).opacity = _
  unfold Body.step
  split <;> rfl

theorem spared_walk (g : Grid) (c : Character α) (d : Direction) (count : α) :
    Spared c (c.walk g d count) := by
  obtain ⟨ho, hf⟩ := spared_stepIn g c d
  simp only [walk]
  split
  · split <;> exact ⟨ho, hf⟩
  · split <;> exact ⟨ho, hf⟩

omit [Scalar α] in
theorem spared_approach (g : Grid) (c : Character α) (goal : Tile) :
    Spared c (c.approach g goal) := by
  simp only [approach]
  split
  · exact ⟨rfl, rfl⟩
  · rename_i d _
    obtain ⟨ho, hf⟩ := spared_stepIn g c d
    split <;> exact ⟨ho, hf⟩

theorem refades_showPortrait (span : α) (c : Character α) (portrait? : Option Portrait)
    {missing : Event α} (hm : missing.fade? = none) :
    Refades span c (c.showPortrait portrait? missing) := by
  cases portrait? with
  | some p => exact .kept ⟨rfl, rfl⟩ rfl
  | none => exact .kept ⟨rfl, rfl⟩ (List.filterMap_cons_none hm)

theorem refades_startFade {span : α} {ramp : Ramp} {duration : α} {blocks : Bool}
    {done : Logged (Event α) (Character α)} (h : c.startFade span ramp duration blocks = .ok done) :
    Refades span c done := by
  obtain ⟨hd, rfl⟩ := startFade_eq_ok h
  exact .started ramp duration blocks hd rfl rfl rfl

omit [Scalar α] in
theorem spared_randomWait {least limit : Int} {d : Character α}
    (h : c.randomWait least limit = .ok d) : Spared c d := by
  obtain ⟨-, rfl⟩ := randomWait_eq_ok h
  exact ⟨rfl, rfl⟩

theorem Ran.refades {call : Call α} {done : Logged (Event α) (Character α)}
    (h : Ran w c call done) : Refades w.settings.opacitySpan c done := by
  cases h with
  | walk d count => exact .kept (spared_walk w.grid c d _) rfl
  | shake => exact .kept ⟨rfl, rfl⟩ rfl
  | fade ramp duration blocks done _ _ _ hf => exact refades_startFade hf
  | actorImage => exact refades_showPortrait _ c _ rfl
  | memberImage => exact refades_showPortrait _ c _ rfl
  | approach => exact .kept (spared_approach w.grid c _) rfl
  | randomWait least limit d _ _ _ hr => exact .kept (spared_randomWait hr) rfl

theorem refades_perform (w : World α) (c : Character α) (command : Command α) :
    Refades w.settings.opacitySpan c (c.perform w command) := by
  cases command with
  | finish => exact .kept ⟨rfl, rfl⟩ rfl
  | step d => exact .kept (spared_stepIn w.grid c d) rfl
  | turn d => exact .kept ⟨rfl, rfl⟩ rfl
  | wait frames => exact .kept ⟨rfl, rfl⟩ rfl
  | script text => exact .kept ⟨rfl, rfl⟩ rfl
  | call call =>
    simp only [perform]
    cases h : c.invoke w call with
    | ok done => exact (ran_of_invoke h).refades
    | error e => exact .kept ⟨rfl, rfl⟩ rfl

omit [Scalar α] in
theorem spared_finish (c : Character α) :
    Spared c c.finish.value ∧ Event.fades c.finish.events = [] := by
  unfold finish
  split <;> exact ⟨⟨rfl, rfl⟩, rfl⟩

omit [Scalar α] in
theorem spared_moveCursor (c : Character α) : Spared c c.moveCursor := by
  unfold moveCursor
  split
  · exact ⟨rfl, rfl⟩
  · split <;> exact ⟨rfl, rfl⟩

omit [Scalar α] in
theorem spared_advance (c : Character α) :
    Spared c c.advance.value ∧ Event.fades c.advance.events = [] := by
  have htake : Spared c (c.mapProgress Progress.take) := ⟨rfl, rfl⟩
  unfold advance
  dsimp only
  split
  · exact ⟨htake, rfl⟩
  · obtain ⟨hs, he⟩ := spared_finish (c.mapProgress Progress.take)
    exact ⟨htake.trans hs, he⟩
  · exact ⟨htake.trans (spared_moveCursor _), rfl⟩

omit [Scalar α] in
theorem spared_endRoute (c : Character α) (r : Route α) :
    Spared c (c.endRoute r).value ∧ Event.fades (c.endRoute r).events = [] := by
  unfold endRoute
  split
  · exact ⟨⟨rfl, rfl⟩, rfl⟩
  · exact spared_finish c

theorem Refades.advance {span : α} {done : Logged (Event α) (Character α)}
    (h : Refades span c done) : Refades span c (done >>= Character.advance) := by
  obtain ⟨⟨ho', hf'⟩, hn⟩ := spared_advance done.value
  have hevents : Event.fades (done >>= Character.advance).events = Event.fades done.events := by
    rw [Logged.events_bind, Event.fades_append, hn, List.append_nil]
  cases h with
  | kept hs he => exact .kept (hs.trans ⟨ho', hf'⟩) (hevents.trans he)
  | started ramp duration blocks hd ho hf he =>
    exact .started ramp duration blocks hd (ho'.trans ho) (hf'.trans hf) (hevents.trans he)

theorem refades_follow (w : World α) (c : Character α) :
    Refades w.settings.opacitySpan c (c.follow w) := by
  generalize hd : c.follow w = done
  have ht : Turn w c done := hd ▸ turn_follow w c
  cases ht with
  | busy => exact .kept ⟨rfl, rfl⟩ rfl
  | free => exact .kept ⟨rfl, rfl⟩ rfl
  | waiting => exact .kept ⟨rfl, rfl⟩ rfl
  | ending r =>
    obtain ⟨⟨ho, hf⟩, he⟩ := spared_endRoute c.attempt r
    exact .kept ⟨ho, hf⟩ he
  | running r command =>
    have hp : Refades w.settings.opacitySpan c (c.attempt.perform w command) := by
      cases refades_perform w c.attempt command with
      | kept hs he => exact .kept ⟨hs.opacity, hs.fade⟩ he
      | started ramp duration blocks hd ho hf he =>
        exact .started ramp duration blocks hd ho hf he
    exact hp.advance

end Character

namespace Operation

def isTick : Operation α → Bool
  | tick => true
  | _ => false

/-- The operation does not set the opacity from outside. -/
def Spares : Operation α → Prop
  | request (.body change) => ∀ b, (change b).opacity = b.opacity
  | _ => True

end Operation

def ticksIn (ops : List (Operation α)) : Nat := ops.countP Operation.isTick

theorem ticksIn_append (xs ys : List (Operation α)) :
    ticksIn (xs ++ ys) = ticksIn xs + ticksIn ys := List.countP_append

namespace Fade

def after (f : Fade α) (k : Nat) : Fade α := { f with remaining := f.remaining - k }

theorem after_after (f : Fade α) (m n : Nat) : (f.after m).after n = f.after (m + n) := by
  simp only [after, Nat.sub_sub]

variable [Scalar α]

def shift (f : Fade α) : α :=
  match f.ramp with
  | .appear => f.step
  | .vanish => -f.step

/-- The opacity that becomes of another one in a tick of a fade. -/
def brighten (shift x : α) : α := Scalar.clamp Scalar.zero Body.fullOpacity (x + shift)

def opacityAfter (f : Fade α) (k : Nat) (x : α) : α :=
  (brighten f.shift)^[min k f.remaining] x

theorem opacityAfter_zero (f : Fade α) (x : α) : f.opacityAfter 0 x = x := by
  unfold opacityAfter
  rw [Nat.zero_min]
  rfl

theorem opacityAfter_after (f : Fade α) (m n : Nat) (x : α) :
    (f.after m).opacityAfter n (f.opacityAfter m x) = f.opacityAfter (m + n) x := by
  have hsum : min n (f.remaining - m) + min m f.remaining = min (m + n) f.remaining := by omega
  unfold opacityAfter
  rw [← hsum, Function.iterate_add_apply]
  rfl

end Fade

namespace Character

variable [Scalar α] {w : World α} {c : Character α} {op : Operation α}

theorem fades_compileLogged (l : Lexicon) (r : Route α) :
    Event.fades (r.compileLogged l).events = [] :=
  filterMap_compileLogged (fun _ _ _ => rfl) (fun _ _ => rfl) l r

theorem refades_compiled {span : α} {r : Route α} {f : Route α → Logged (Event α) (Character α)}
    (l : Lexicon) (hs : Spared c (f (r.compileLogged l).value).value)
    (he : Event.fades (f (r.compileLogged l).value).events = []) :
    Refades span c (r.compileLogged l >>= f) := by
  refine .kept hs ?_
  rw [Logged.events_bind, Event.fades_append, fades_compileLogged, List.nil_append]
  exact he

theorem refades_install (l : Lexicon) (span : α) (c : Character α) (route? : Option (Route α)) :
    Refades span c (c.install l route?) := by
  cases route? with
  | none => exact .kept ⟨rfl, rfl⟩ rfl
  | some r => exact refades_compiled l ⟨rfl, rfl⟩ rfl

theorem refades_force (l : Lexicon) (span : α) (c : Character α) (route? : Option (Route α)) :
    Refades span c (c.force l route?) := by
  cases route? with
  | none => exact .kept ⟨rfl, rfl⟩ rfl
  | some r => exact refades_compiled l ⟨rfl, rfl⟩ rfl

theorem refades_request {asked : Request α} (hs : (Operation.request asked).Spares) :
    Refades w.settings.opacitySpan c (c.request w asked) := by
  cases asked with
  | call asked =>
    simp only [request]
    cases h : c.invoke w asked with
    | ok done => exact (ran_of_invoke h).refades
    | error e => exact .kept ⟨rfl, rfl⟩ rfl
  | walk d count => exact .kept (spared_walk w.grid c d count) rfl
  | shake axis power speed duration => exact .kept ⟨rfl, rfl⟩ rfl
  | fade ramp duration blocks =>
    simp only [request]
    cases h : c.startFade w.settings.opacitySpan ramp duration blocks with
    | ok done => exact refades_startFade h
    | error e => exact .kept ⟨rfl, rfl⟩ rfl
  | actorImage id => exact refades_showPortrait _ c _ rfl
  | memberImage slot => exact refades_showPortrait _ c _ rfl
  | approach goal => exact .kept (spared_approach w.grid c goal) rfl
  | randomWait least limit =>
    simp only [request]
    cases h : c.randomWait least limit with
    | ok d => exact .kept (spared_randomWait h) rfl
    | error e => exact .kept ⟨rfl, rfl⟩ rfl
  | body change => exact .kept ⟨hs c.body, rfl⟩ rfl

/-- From this opacity on the fade has gone on for so many ticks. -/
structure Faded (f : Fade α) (x : α) (k : Nat) (d : Character α) : Prop where
  fade : d.motion.fade = f.after k
  opacity : d.body.opacity = f.opacityAfter k x

theorem faded_zero (c : Character α) : Faded c.motion.fade c.body.opacity 0 c :=
  ⟨rfl, (c.motion.fade.opacityAfter_zero _).symm⟩

theorem Faded.trans {f : Fade α} {x : α} {m n : Nat} {d : Character α} (h : Faded f x m c)
    (k : Faded c.motion.fade c.body.opacity n d) : Faded f x (m + n) d := by
  obtain ⟨hf, ho⟩ := k
  rw [h.fade] at hf ho
  rw [h.opacity, Fade.opacityAfter_after] at ho
  exact ⟨hf.trans (f.after_after m n), ho⟩

/-- The frames of a tick take the fade one step further. -/
theorem faded_frame (c : Character α) : Faded c.motion.fade c.body.opacity 1 c.frame := by
  have ho : (c.animate.mapBody Body.updateAnimation).body.opacity = c.body.opacity := by
    change c.animate.body.opacity = _
    unfold animate
    split
    · rfl
    · split
      · rfl
      · split <;> rfl
  have hf : (c.animate.mapBody Body.updateAnimation).motion.fade = c.motion.fade := fade_animate c
  unfold frame ramp
  rw [hf]
  cases ha : c.motion.fade.active with
  | true =>
    have hmin : min 1 c.motion.fade.remaining = 1 := Nat.min_eq_left (of_decide_eq_true ha)
    simp only [Fade.change?, ha, if_true, ho]
    refine ⟨rfl, ?_⟩
    rw [Fade.opacityAfter, hmin]
    rfl
  | false =>
    have hz : c.motion.fade.remaining = 0 := Nat.eq_zero_of_not_pos (of_decide_eq_false ha)
    simp only [Fade.change?, ha, Bool.false_eq_true, if_false]
    refine ⟨hf.trans ?_, ?_⟩
    · rw [Fade.after, hz, Nat.zero_sub, ← hz]
    · rw [Fade.opacityAfter, hz, Nat.min_zero]
      exact ho

/-- An operation starts a fade or leaves it alone; then, if it is a tick, the fade goes on. -/
theorem exists_refades (hs : op.Spares) :
    ∃ done, Refades w.settings.opacitySpan c done ∧
      Event.fades (c.operate w op).events = Event.fades done.events ∧
      Faded done.value.motion.fade done.value.body.opacity (ticksIn [op])
        (c.operate w op).value := by
  cases op with
  | install route? => exact ⟨_, refades_install w.lexicon _ c route?, rfl, faded_zero _⟩
  | force route? => exact ⟨_, refades_force w.lexicon _ c route?, rfl, faded_zero _⟩
  | request asked => exact ⟨_, refades_request hs, rfl, faded_zero _⟩
  | tick =>
    exact ⟨_, refades_follow w c, congrArg Event.fades (events_tick w c), faded_frame _⟩

theorem faded_operate (hs : op.Spares) (he : Event.fades (c.operate w op).events = []) :
    Faded c.motion.fade c.body.opacity (ticksIn [op]) (c.operate w op).value := by
  obtain ⟨done, hr, hevents, hf⟩ := exists_refades (w := w) (c := c) hs
  cases hr with
  | kept hk _ =>
    rw [hk.fade, hk.opacity] at hf
    exact hf
  | started ramp duration blocks _ _ _ hstart =>
    rw [he, hstart] at hevents
    cases hevents

/-- A fade that an operation starts takes its first step in the same tick, if it is one. -/
theorem faded_start {ramp : Ramp} {duration step : α} {blocks : Bool}
    (he : Event.fades (c.operate w op).events = [(ramp, duration, step, blocks)]) :
    ¬ Scalar.Le duration Scalar.zero ∧
      Faded (Fade.lasting ramp duration w.settings.opacitySpan blocks) c.body.opacity
        (ticksIn [op]) (c.operate w op).value := by
  have hs : op.Spares := by
    cases op with
    | request asked =>
      cases asked with
      | body change => cases he
      | _ => trivial
    | _ => trivial
  obtain ⟨done, hr, hevents, hf⟩ := exists_refades (w := w) (c := c) hs
  cases hr with
  | kept _ hnone =>
    rw [he, hnone] at hevents
    cases hevents
  | started ramp' duration' blocks' hd ho hfade hstart =>
    rw [he, hstart] at hevents
    cases hevents
    rw [hfade, ho] at hf
    exact ⟨hd, hf⟩

/-- No other fade is started, and the opacity is not set from outside. -/
structure Undisturbed (w : World α) (c : Character α) (ops : List (Operation α)) : Prop where
  spares : ∀ op ∈ ops, op.Spares
  fades : Event.fades (c.run w ops).events = []

theorem Undisturbed.head {ops : List (Operation α)} (h : Undisturbed w c (op :: ops)) :
    op.Spares ∧ Event.fades (c.operate w op).events = [] ∧
      Undisturbed w (c.operate w op).value ops := by
  have he := h.fades
  change Event.fades ((c.operate w op).events ++ ((c.operate w op).value.run w ops).events) = _ at he
  rw [Event.fades_append, List.append_eq_nil_iff] at he
  exact ⟨h.spares op List.mem_cons_self, he.1,
    fun other ho => h.spares other (List.mem_cons_of_mem op ho), he.2⟩

theorem faded_run {ops : List (Operation α)} (h : Undisturbed w c ops) :
    Faded c.motion.fade c.body.opacity (ticksIn ops) (c.run w ops).value := by
  induction ops generalizing c with
  | nil => exact faded_zero c
  | cons op ops ih =>
    obtain ⟨hs, he, hrest⟩ := h.head
    have hsum : ticksIn (op :: ops) = ticksIn [op] + ticksIn ops := ticksIn_append [op] ops
    rw [hsum]
    exact (faded_operate hs he).trans (ih hrest)

end Character

/-- Numbers with which a fade computes exactly. -/
class Unrounded (α : Type) [Scalar α] : Prop where
  exact_ofInt : ∀ i : Int, Scalar.exact (Scalar.ofInt i : α) = .finite i
  exact_neg : ∀ {x : α} {a : Rat}, Scalar.exact x = .finite a → Scalar.exact (-x) = .finite (-a)
  exact_add : ∀ {x y : α} {a b : Rat}, Scalar.exact x = .finite a → Scalar.exact y = .finite b →
    Scalar.exact (x + y) = .finite (a + b)
  exact_div : ∀ {x y : α} {a b : Rat}, Scalar.exact x = .finite a → Scalar.exact y = .finite b →
    Scalar.exact (x / y) = .finite (a / b)

instance : Unrounded Rat where
  exact_ofInt _ := rfl
  exact_neg h := congrArg Exact.finite (congrArg Neg.neg (Exact.finite.inj h))
  exact_add h k :=
    congrArg Exact.finite (congrArg₂ HAdd.hAdd (Exact.finite.inj h) (Exact.finite.inj k))
  exact_div h k :=
    congrArg Exact.finite (congrArg₂ HDiv.hDiv (Exact.finite.inj h) (Exact.finite.inj k))

/-- The opacity nearest to a number. -/
def opacityOf (r : Rat) : Rat := max 0 (min 255 r)

theorem opacityOf_of_mem {r : Rat} (h0 : 0 ≤ r) (h1 : r ≤ 255) : opacityOf r = r := by
  rw [opacityOf, min_eq_right h1, max_eq_right h0]

/-- Steps the same way lead back from neither bound, so that it does not matter that one was met. -/
theorem opacityOf_add {r b : Rat} (h : 0 ≤ b ∧ 0 ≤ r ∨ b ≤ 0 ∧ r ≤ 255) :
    opacityOf (opacityOf r + b) = opacityOf (r + b) := by
  unfold opacityOf
  rcases h with ⟨hb, hr⟩ | ⟨hb, hr⟩
  · rcases le_or_gt r 255 with hle | hgt
    · rw [min_eq_right hle, max_eq_right hr]
    · have hfull : max (0 : Rat) 255 = 255 := max_eq_right (by norm_num)
      have hover : (255 : Rat) ≤ r + b := by linarith
      have hstay : (255 : Rat) ≤ 255 + b := by linarith
      rw [min_eq_left (le_of_lt hgt), min_eq_left hover, hfull, min_eq_left hstay, hfull]
  · rcases le_or_gt 0 r with hle | hlt
    · rw [min_eq_right hr, max_eq_right hle]
    · have hunder : r + b ≤ 0 := by linarith
      rw [max_eq_left (le_trans (min_le_right _ _) (le_of_lt hlt)), zero_add,
        max_eq_left (le_trans (min_le_right _ _) hb),
        max_eq_left (le_trans (min_le_right _ _) hunder)]

namespace Fade

variable [Scalar α] [Unrounded α]

theorem exact_brighten {shift x : α} {a b : Rat} (hx : Scalar.exact x = .finite a)
    (hs : Scalar.exact shift = .finite b) :
    Scalar.exact (brighten shift x) = .finite (opacityOf (a + b)) := by
  have hsum := Unrounded.exact_add hx hs
  have hlo : Scalar.exact (Scalar.zero : α) = .finite 0 := Unrounded.exact_ofInt 0
  have hhi : Scalar.exact (Body.fullOpacity : α) = .finite 255 := Unrounded.exact_ofInt 255
  have hunder : Scalar.Lt (x + shift) Scalar.zero ↔ a + b < 0 := by
    rw [Scalar.Lt, hsum, hlo, Exact.finite_lt_finite]
  have hover : Scalar.Lt Body.fullOpacity (x + shift) ↔ 255 < a + b := by
    rw [Scalar.Lt, hsum, hhi, Exact.finite_lt_finite]
  simp only [brighten, Scalar.clamp, hunder, hover, opacityOf]
  split
  · rename_i h
    rw [hlo, max_eq_left (le_trans (min_le_right _ _) (le_of_lt h))]
  · split
    · rename_i h
      rw [hhi, min_eq_left (le_of_lt h), max_eq_right (by norm_num)]
    · rename_i h0 h1
      rw [hsum, min_eq_right (not_lt.mp h1), max_eq_right (not_lt.mp h0)]

theorem exact_iterate_brighten {shift x : α} {a b : Rat} (hx : Scalar.exact x = .finite a)
    (hs : Scalar.exact shift = .finite b) (h0 : 0 ≤ a) (h1 : a ≤ 255) (k : Nat) :
    Scalar.exact ((brighten shift)^[k] x) = .finite (opacityOf (a + k * b)) := by
  -- On the ticks: the clamp of the last one absorbs those before it, as all steps go the same way.
  induction k with
  | zero =>
    rw [Nat.cast_zero, zero_mul, add_zero, opacityOf_of_mem h0 h1]
    exact hx
  | succ k ih =>
    have hsign : 0 ≤ b ∧ 0 ≤ a + k * b ∨ b ≤ 0 ∧ a + k * b ≤ 255 := by
      have hk : (0 : Rat) ≤ k := Nat.cast_nonneg k
      rcases le_total 0 b with hb | hb
      · have := mul_nonneg hk hb
        exact .inl ⟨hb, by linarith⟩
      · have := mul_nonpos_of_nonneg_of_nonpos hk hb
        exact .inr ⟨hb, by linarith⟩
    have hsum : a + k * b + b = a + (k + 1 : Nat) * b := by
      push_cast
      ring
    rw [Function.iterate_succ_apply', exact_brighten ih hs, opacityOf_add hsign, hsum]

end Fade

def Ramp.signed : Ramp → Rat → Rat
  | .appear, x => x
  | .vanish, x => -x

namespace Fade

variable [Scalar α]

theorem ticks_of_finite [Counting α] {duration : α} {q : Rat} (hd : ¬ Scalar.Le duration Scalar.zero)
    (hq : Scalar.exact duration = .finite q) : ticks duration = min q.ceil.toNat maxCount := by
  rw [ticks_of_positive hd, hq]
  rfl

theorem ticks_pos [Counting α] {duration : α} {q : Rat} (hd : ¬ Scalar.Le duration Scalar.zero)
    (hq : Scalar.exact duration = .finite q) : 0 < ticks duration := by
  have hceil : (0 : Int) < q.ceil :=
    Rat.lt_ceil_iff.mpr (by exact_mod_cast (Scalar.positive_iff hq).mp hd)
  rw [ticks_of_finite hd hq, maxCount]
  omega

theorem exact_shift [Unrounded α] (ramp : Ramp) (blocks : Bool) {duration span : α} {q s : Rat}
    (hd : 0 < ticks duration) (hq : Scalar.exact duration = .finite q)
    (hs : Scalar.exact span = .finite s) :
    Scalar.exact (lasting ramp duration span blocks).shift = .finite (ramp.signed (s / q)) := by
  have hstep : (lasting ramp duration span blocks).step = span / duration :=
    if_neg (Nat.ne_of_gt hd)
  have hdiv := Unrounded.exact_div hs hq
  rw [← hstep] at hdiv
  cases ramp with
  | appear => exact hdiv
  | vanish => exact Unrounded.exact_neg hdiv

end Fade

namespace Character

variable [Scalar α] {w : World α} {c : Character α} {op : Operation α}

/-- The fade that the operation starts goes on for `n` ticks, and no tick longer, whatever else
happens. Only ticks change the opacity, and where numbers are exact so many of them change it by so
many equal parts of the span, as far as the bounds allow. -/
structure RunsItsCourse (w : World α) (c : Character α) (op : Operation α) (ramp : Ramp)
    (duration : Rat) (n : Nat) : Prop where
  lasts : ∀ ops, Undisturbed w (c.operate w op).value ops →
    ((c.run w (op :: ops)).value.motion.fade.active = true ↔ ticksIn (op :: ops) < n)
  still : ∀ ops other, Undisturbed w (c.operate w op).value (ops ++ [other]) →
    other.isTick = false →
      (c.run w (op :: ops ++ [other])).value.body.opacity =
        (c.run w (op :: ops)).value.body.opacity
  ramps : ∀ [Unrounded α] (opacity span : Rat), Scalar.exact c.body.opacity = .finite opacity →
    0 ≤ opacity → opacity ≤ 255 → Scalar.exact w.settings.opacitySpan = .finite span →
      ∀ ops, Undisturbed w (c.operate w op).value ops →
        Scalar.exact (c.run w (op :: ops)).value.body.opacity =
          .finite (opacityOf (opacity +
            (min (ticksIn (op :: ops)) n : Nat) * ramp.signed (span / duration)))

/-- What a fade has come to depends on nothing but the ticks since it was started. -/
theorem fade_runs_its_course [Counting α] {ramp : Ramp} {duration step : α} {blocks : Bool}
    {q : Rat} (he : Event.fades (c.operate w op).events = [(ramp, duration, step, blocks)])
    (hq : Scalar.exact duration = .finite q) :
    RunsItsCourse w c op ramp q (min q.ceil.toNat maxCount) := by
  obtain ⟨hd, hstart⟩ := faded_start he
  have hticks := Fade.ticks_of_finite hd hq
  have hrun : ∀ ops, Undisturbed w (c.operate w op).value ops →
      Faded (Fade.lasting ramp duration w.settings.opacitySpan blocks) c.body.opacity
        (ticksIn (op :: ops)) (c.run w (op :: ops)).value := by
    intro ops h
    have hsum : ticksIn (op :: ops) = ticksIn [op] + ticksIn ops := ticksIn_append [op] ops
    rw [hsum]
    exact hstart.trans (faded_run h)
  refine { lasts := ?lasts, still := ?still, ramps := ?ramps }
  case lasts =>
    intro ops h
    have hleft : (c.run w (op :: ops)).value.motion.fade.remaining =
        Fade.ticks duration - ticksIn (op :: ops) := congrArg Fade.remaining (hrun ops h).fade
    rw [Fade.active, decide_eq_true_iff, hleft, hticks]
    omega
  case still =>
    intro ops other h hother
    have hbefore : Undisturbed w (c.operate w op).value ops := by
      refine ⟨fun x hx => h.spares x (List.mem_append_left _ hx), ?_⟩
      have hall := h.fades
      rw [events_run_append, Event.fades_append, List.append_eq_nil_iff] at hall
      exact hall.1
    have hsame : ticksIn (op :: ops ++ [other]) = ticksIn (op :: ops) := by
      rw [ticksIn_append]
      simp only [ticksIn, List.countP_singleton, hother, Bool.false_eq_true, if_false, Nat.add_zero]
    have hall := (hrun (ops ++ [other]) h).opacity
    rw [← List.cons_append, hsame, ← (hrun ops hbefore).opacity] at hall
    exact hall
  case ramps =>
    intro _ opacity span ho h0 h1 hs ops h
    have hshift := Fade.exact_shift ramp blocks (Fade.ticks_pos hd hq) hq hs
    rw [(hrun ops h).opacity, Fade.opacityAfter, Fade.exact_iterate_brighten ho hshift h0 h1,
      ← hticks]
    rfl

def porch : World Rat where
  grid := ⟨2, 1, .ofList [true, true]⟩
  roster := {}
  lexicon := .standard
  settings := Settings.standard

def lamp : Character Rat := placed "lamp" (Body.standing ⟨0, 0⟩ 2 0) porch.settings

def goOut : Operation Rat := .request (.fade .vanish (5 / 2) true)

/-- The lamp is shaken and given a route while it goes out. -/
def gusts : List (Operation Rat) :=
  [.tick, .request (.shake .horizontal 3 1 1), .install (some { commands := [.step .right] }), .tick,
    .force none]

theorem fade_runs_its_course_lamp :
    Event.fades (lamp.operate porch goOut).events = [(.vanish, 5 / 2, 102, true)] ∧
      Scalar.exact (5 / 2 : Rat) = .finite (5 / 2) ∧
        RunsItsCourse porch lamp goOut .vanish (5 / 2) 3 ∧
          Undisturbed porch (lamp.operate porch goOut).value gusts ∧
            (lamp.run porch (goOut :: gusts)).value.body.opacity = 51 ∧
              (lamp.run porch (goOut :: gusts)).value.motion.fade.active = true := by
  have hq : Scalar.exact (5 / 2 : Rat) = .finite (5 / 2) := rfl
  have he : Event.fades (lamp.operate porch goOut).events = [(.vanish, 5 / 2, 102, true)] := by
    decide +kernel
  have hn : min (5 / 2 : Rat).ceil.toNat maxCount = 3 := by decide +kernel
  have hcourse := fade_runs_its_course he hq
  rw [hn] at hcourse
  have hu : Undisturbed porch (lamp.operate porch goOut).value gusts := by
    refine ⟨fun op hop => ?_, by decide +kernel⟩
    simp only [gusts, List.mem_cons, List.not_mem_nil, or_false] at hop
    rcases hop with rfl | rfl | rfl | rfl | rfl <;> trivial
  have hopacity := hcourse.ramps 255 255 (by decide +kernel) (by norm_num) (le_refl _)
    (by decide +kernel) gusts hu
  refine ⟨he, hq, hcourse, hu, (Exact.finite.inj hopacity).trans (by decide +kernel), ?_⟩
  exact (hcourse.lasts gusts hu).mpr (by decide)

end Character

end TileRoute
