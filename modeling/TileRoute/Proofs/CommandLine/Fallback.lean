import TileRoute.CommandLine

/-!
# The number of ticks from the environment

The arguments may leave the number of ticks open, and then the environment fills it in. Where they
do not, the environment makes no difference as long as it holds a number; since it is looked at
before the arguments, one that holds none is an error whatever they ask for.
-/

namespace TileRoute.CommandLine

/-- Among the flags, each of which has its value behind it, there is one for the ticks. -/
def GivesTicks (arguments : List String) : Prop :=
  ∃ k, arguments[2 * k]? = some "--ticks" ∧ 2 * k + 1 < arguments.length

theorem not_givesTicks_of_length {arguments : List String} (h : arguments.length < 2) :
    ¬ GivesTicks arguments := by
  rintro ⟨k, -, hk⟩
  omega

theorem givesTicks_cons_cons {flag value : String} {rest : List String} :
    GivesTicks (flag :: value :: rest) ↔ flag = "--ticks" ∨ GivesTicks rest := by
  constructor
  · rintro ⟨k, hflag, hlength⟩
    cases k with
    | zero => exact .inl (Option.some.inj hflag)
    | succ k =>
      rw [Nat.mul_succ, List.getElem?_cons_succ, List.getElem?_cons_succ] at hflag
      rw [Nat.mul_succ, List.length_cons, List.length_cons] at hlength
      exact .inr ⟨k, hflag, by omega⟩
  · rintro (rfl | ⟨k, hflag, hlength⟩)
    · exact ⟨0, rfl, Nat.succ_lt_succ (Nat.succ_pos _)⟩
    · refine ⟨k + 1, ?_, ?_⟩
      · rw [Nat.mul_succ, List.getElem?_cons_succ, List.getElem?_cons_succ]
        exact hflag
      · rw [Nat.mul_succ, List.length_cons, List.length_cons]
        omega

variable {o : Options} {flag value : String} {rest arguments : List String} {request : Request}

theorem readArguments_scenario : readArguments o ("--scenario" :: value :: rest) =
    readArguments { o with scenario? := some value } rest := by
  simp [readArguments]

theorem readArguments_ticks : readArguments o ("--ticks" :: value :: rest) =
    numberFor "--ticks" value >>= fun n => readArguments { o with ticks? := some n } rest := by
  simp [readArguments]

theorem readArguments_interval : readArguments o ("--log-every" :: value :: rest) =
    numberFor "--log-every" value >>= fun n => readArguments { o with interval := n } rest := by
  simp [readArguments]

/-- The flag has its value behind it. -/
def TakesValue (flag : String) : Prop :=
  flag = "--scenario" ∨ flag = "--ticks" ∨ flag = "--log-every"

theorem readArguments_alone (h : TakesValue flag) :
    readArguments o [flag] = .error (.missingValue flag) := by
  rcases h with rfl | rfl | rfl <;> simp [readArguments]

/-- Any other flag decides at once, whatever has been asked for before it. -/
theorem readArguments_at_once (h : ¬ TakesValue flag) (rest : List String) :
    ∃ result, (∀ o, readArguments o (flag :: rest) = result) ∧ ∀ r, result ≠ .ok (.run r) := by
  have hread : ∀ o, readArguments o (flag :: rest) =
      if flag = "-h" ∨ flag = "--help" then .ok .help
      else if flag = "--list-mnemonics" then .ok .mnemonics
      else .error (.unknownArgument flag) := by
    intro o
    unfold TakesValue at h
    rw [readArguments.eq_def]
    dsimp only
    rw [if_neg h]
  refine ⟨_, hread, fun r => ?_⟩
  split
  · nofun
  · split <;> nofun

/-- They make no difference, because there is a flag for them or because no run is asked for. -/
def Indifferent (o : Options) (arguments : List String) : Prop :=
  ∃ result, (∀ t, readArguments { o with ticks? := t } arguments = result) ∧
    (GivesTicks arguments ∨ ∀ r, result ≠ .ok (.run r))

/-- They are those of the run that is asked for. -/
def LeftOpen (o : Options) (arguments : List String) : Prop :=
  ¬ GivesTicks arguments ∧ ∃ scenario interval, ∀ t,
    readArguments { o with ticks? := t } arguments =
      .ok (.run ⟨scenario, t.getD defaultTicks, interval⟩)

theorem indifferent_or_leftOpen_of {before : Options}
    (hread : ∀ t, readArguments { before with ticks? := t } arguments =
      readArguments { o with ticks? := t } rest)
    (hgives : GivesTicks arguments ↔ GivesTicks rest)
    (h : Indifferent o rest ∨ LeftOpen o rest) :
    Indifferent before arguments ∨ LeftOpen before arguments := by
  rcases h with ⟨result, hresult, hcause⟩ | ⟨hopen, scenario, interval, hrun⟩
  · exact .inl ⟨result, fun t => (hread t).trans (hresult t), hcause.imp_left hgives.mpr⟩
  · have hstays : ¬ GivesTicks arguments := fun hg => hopen (hgives.mp hg)
    exact .inr ⟨hstays, scenario, interval, fun t => (hread t).trans (hrun t)⟩

theorem indifferent_of_error (error : UsageError)
    (h : ∀ t, readArguments { o with ticks? := t } arguments = .error error) :
    Indifferent o arguments :=
  ⟨.error error, h, .inr nofun⟩

theorem indifferent_or_leftOpen (o : Options) :
    ∀ arguments, Indifferent o arguments ∨ LeftOpen o arguments
  | [] => by
    cases hs : o.scenario? with
    | none =>
      refine .inl (indifferent_of_error .missingScenario fun t => ?_)
      rw [readArguments, Options.request, hs]
    | some scenario =>
      refine .inr ⟨not_givesTicks_of_length Nat.two_pos, scenario, o.interval, fun t => ?_⟩
      rw [readArguments, Options.request, hs]
  | [flag] => by
    by_cases hf : TakesValue flag
    · exact .inl (indifferent_of_error _ fun t => readArguments_alone hf)
    · obtain ⟨result, hresult, hrun⟩ := readArguments_at_once hf []
      exact .inl ⟨result, fun t => hresult _, .inr hrun⟩
  | flag :: value :: rest => by
    by_cases hf : TakesValue flag
    · have hgives (hne : flag ≠ "--ticks") : GivesTicks (flag :: value :: rest) ↔ GivesTicks rest :=
        givesTicks_cons_cons.trans (or_iff_right hne)
      rcases hf with rfl | rfl | rfl
      · exact indifferent_or_leftOpen_of (fun t => readArguments_scenario) (hgives (by decide))
          (indifferent_or_leftOpen { o with scenario? := some value } rest)
      · cases hn : numberFor "--ticks" value with
        | error error =>
          refine .inl (indifferent_of_error error fun t => ?_)
          rw [readArguments_ticks, hn]
          rfl
        | ok n =>
          refine .inl ⟨readArguments { o with ticks? := some n } rest, fun t => ?_,
            .inl (givesTicks_cons_cons.mpr (.inl rfl))⟩
          rw [readArguments_ticks, hn]
          rfl
      · cases hn : numberFor "--log-every" value with
        | error error =>
          refine .inl (indifferent_of_error error fun t => ?_)
          rw [readArguments_interval, hn]
          rfl
        | ok n =>
          refine indifferent_or_leftOpen_of (fun t => ?_) (hgives (by decide))
            (indifferent_or_leftOpen { o with interval := n } rest)
          rw [readArguments_interval, hn]
          rfl
    · obtain ⟨result, hresult, hrun⟩ := readArguments_at_once hf (value :: rest)
      exact .inl ⟨result, fun t => hresult _, .inr hrun⟩

/-- What is asked for needs no number of ticks from the environment. -/
def Decided (arguments : List String) : Request → Prop
  | .help => True
  | .mnemonics => True
  | .run _ => GivesTicks arguments

/-- The environment holds a number, with blanks around it or none. -/
def HoldsNumber (value : String) : Prop := ∃ n, number? (Text.trim value) = some n

/-- What becomes of a request if the environment holds something. -/
structure FallsBack (arguments : List String) (request : Request) (value : String) : Prop where
  kept_iff : Decided arguments request →
    (Request.ofArguments (some value) arguments = .ok request ↔ HoldsNumber value)
  refused : ¬ HoldsNumber value → Request.ofArguments (some value) arguments =
    .error (.badNumber ticksVariable (Text.trim value))
  taken : ∀ r, request = .run r → ¬ GivesTicks arguments → ∀ n,
    number? (Text.trim value) = some n →
      Request.ofArguments (some value) arguments = .ok (.run { r with ticks := n })

theorem ofArguments_none (arguments : List String) :
    Request.ofArguments none arguments = readArguments {} arguments := rfl

theorem ofArguments_of_number {n : Nat} (h : number? (Text.trim value) = some n) :
    Request.ofArguments (some value) arguments = readArguments { ticks? := some n } arguments := by
  simp only [Request.ofArguments, readTicks, numberFor, h]
  rfl

theorem ofArguments_of_not_holdsNumber (h : ¬ HoldsNumber value) :
    Request.ofArguments (some value) arguments =
      .error (.badNumber ticksVariable (Text.trim value)) := by
  have hnone : number? (Text.trim value) = none :=
    Option.eq_none_iff_forall_ne_some.mpr fun n hn => h ⟨n, hn⟩
  simp only [Request.ofArguments, readTicks, numberFor, hnone]
  rfl

/-- What is asked for without the environment is kept exactly if the environment, where it is not
needed, still holds a number. -/
theorem request_kept_iff (h : Request.ofArguments none arguments = .ok request) (value : String) :
    FallsBack arguments request value where
  kept_iff hd := by
    constructor
    · intro hkept
      refine Classical.byContradiction fun hno => ?_
      rw [ofArguments_of_not_holdsNumber hno] at hkept
      cases hkept
    · rintro ⟨n, hn⟩
      rw [ofArguments_of_number hn, ← h, ofArguments_none]
      rcases indifferent_or_leftOpen {} arguments with ⟨result, hresult, -⟩ | ⟨hopen, _, _, hrun⟩
      · exact (hresult (some n)).trans (hresult none).symm
      · -- a run without its ticks is nothing that has been decided
        obtain rfl := Except.ok.inj ((hrun none).symm.trans h)
        exact absurd hd hopen
  refused := ofArguments_of_not_holdsNumber
  taken r hr hopen n hn := by
    subst hr
    rw [ofArguments_of_number hn]
    rcases indifferent_or_leftOpen {} arguments with ⟨_, hresult, hcause⟩ | ⟨-, _, _, hrun⟩
    · exact absurd ((hresult none).symm.trans h) (hcause.resolve_left hopen r)
    · obtain rfl := Request.run.inj (Except.ok.inj ((hrun none).symm.trans h))
      exact hrun (some n)

/-- The value of the first flag looks like a flag, and the one for the ticks comes last. -/
def threeTicks : List String := ["--scenario", "--ticks", "--ticks", "3"]

theorem request_kept_iff_threeTicks :
    Request.ofArguments none threeTicks = .ok (.run ⟨"--ticks", 3, 60⟩) ∧
      Decided threeTicks (.run ⟨"--ticks", 3, 60⟩) ∧
        FallsBack threeTicks (.run ⟨"--ticks", 3, 60⟩) " 90 " ∧
          Request.ofArguments (some " 90 ") threeTicks = .ok (.run ⟨"--ticks", 3, 60⟩) := by
  have hnone : Request.ofArguments none threeTicks = .ok (.run ⟨"--ticks", 3, 60⟩) := rfl
  have hgives : GivesTicks threeTicks := ⟨1, by decide, by decide⟩
  have h := request_kept_iff hnone " 90 "
  exact ⟨hnone, hgives, h, (h.kept_iff hgives).mpr ⟨90, by decide +kernel⟩⟩

/-- Whatever is asked for is lost to an environment that nobody has asked. -/
theorem request_lost :
    (Request.ofArguments none threeTicks = .ok (.run ⟨"--ticks", 3, 60⟩) ∧
      Decided threeTicks (.run ⟨"--ticks", 3, 60⟩) ∧
        Request.ofArguments (some "lots") threeTicks =
          .error (.badNumber "ROUTE_SANDBOX_TICKS" "lots")) ∧
      (Request.ofArguments none ["--help"] = .ok .help ∧
        Request.ofArguments (some "lots") ["--help"] =
          .error (.badNumber "ROUTE_SANDBOX_TICKS" "lots")) ∧
        Request.ofArguments none ["--list-mnemonics"] = .ok .mnemonics ∧
          Request.ofArguments (some "lots") ["--list-mnemonics"] =
            .error (.badNumber "ROUTE_SANDBOX_TICKS" "lots") := by
  have hgives : GivesTicks threeTicks := ⟨1, by decide, by decide⟩
  exact ⟨⟨rfl, hgives, rfl⟩, ⟨rfl, rfl⟩, rfl, rfl⟩

end TileRoute.CommandLine
