import LinuxcncCtrl.Spec.DaemonConfig

/-! What an accepted configuration means. The check of an endpoint looks at its first closing bracket and the
listener at its last colon. A duration passes an unsigned parse and a signed conversion, and no check bounds a
deadline. -/

namespace LinuxcncCtrl

open Lib

namespace DaemonConfig

variable {config : DaemonConfig} {files : ConfigFiles}

theorem check_passed (h : config.validate files = .ok ()) {check : Bool × String}
    (hcheck : check ∈ config.checks files) : check.1 = false := by
  unfold validate at h
  split at h
  next => cases h
  next hnone => exact Bool.eq_false_of_not_eq_true (List.find?_eq_none.mp hnone check hcheck)

/-- An endpoint that begins with a bracket is a name in brackets, a colon and a port. -/
def Bracketed (endpoint : List Char) : Prop :=
  endpoint.head? = some '[' →
    ∃ name port, ']' ∉ name ∧ ':' ∉ port ∧ endpoint = '[' :: (name ++ ']' :: ':' :: port)

variable {endpoint name host port : List Char}

theorem splitEndpoint_bracketed (hport : ':' ∉ port) :
    splitEndpoint ('[' :: (name ++ ']' :: ':' :: port)) = .ok (name, port) := by
  have hsplit : '[' :: (name ++ ']' :: ':' :: port) = ('[' :: (name ++ [']'])) ++ ':' :: port := by simp
  unfold splitEndpoint
  rw [hsplit, splitLast_append hport]
  have hlast : ('[' :: (name ++ [']'])).getLast? = some ']' := by
    rw [← List.cons_append, List.getLast?_concat]
  simp [hlast]

theorem endpointHost_bracketed (hname : ']' ∉ name) :
    endpointHost ('[' :: (name ++ ']' :: ':' :: port)) = name := by
  have hnone : name.findIdx? (fun c => decide (c = ']')) = none := by
    rw [List.findIdx?_eq_none_iff]
    intro c hc
    exact decide_eq_false fun heq => hname (heq ▸ hc)
  have hfirst : ('[' :: (name ++ ']' :: ':' :: port)).findIdx? (fun c => decide (c = ']')) =
      some (name.length + 1) := by
    simp [List.findIdx?_cons, List.findIdx?_append, hnone]
  unfold endpointHost
  rw [hfirst]
  simp

theorem endpointHost_plain (hplain : endpoint.head? ≠ some '[')
    (hsplit : splitLast ':' endpoint = some (host, port)) : endpointHost endpoint = host := by
  unfold endpointHost
  split
  · cases hsplit
  · exact absurd rfl hplain
  · rw [hsplit]

theorem splitEndpoint_plain (hplain : host.head? ≠ some '[')
    (hsplit : splitLast ':' endpoint = some (host, port)) : splitEndpoint endpoint = .ok (host, port) := by
  unfold splitEndpoint
  rw [hsplit]
  exact if_neg fun h => hplain h.2.1

theorem telemetryEndpoint_passed (h : config.validate files = .ok ())
    (hplaintext : config.allowPlaintextNonLoopback = false) :
    ∃ host port, splitLast ':' config.telemetryEndpoint = some (host, port) ∧ host ≠ [] ∧
      loopbackHost (endpointHost config.telemetryEndpoint) = true := by
  have hpassed : ∀ check ∈ config.endpointChecks config.telemetryEndpoint "telemetry endpoint" false,
      check.1 = false := fun check hcheck => check_passed h (by simp [checks, hcheck])
  obtain ⟨hform, hrest⟩ := List.forall_mem_cons.mp hpassed
  have hloopback : loopbackHost (endpointHost config.telemetryEndpoint) = true := by
    simpa [hplaintext] using hrest _ List.mem_cons_self
  split at hform
  next => cases hform
  next host port hsplit =>
    refine ⟨host, port, hsplit, ?_, hloopback⟩
    rintro rfl
    cases hform

/-- A name that is bound without its brackets, or with them. -/
theorem splitEndpoint_ok (hsplit : splitLast ':' endpoint = some (host, port)) {bound port' : List Char}
    (h : splitEndpoint endpoint = .ok (bound, port')) :
    host = '[' :: (bound ++ [']']) ∨ host = bound ∧ ¬(1 < host.length ∧ host.head? = some '[' ∧
      host.getLast? = some ']') := by
  unfold splitEndpoint at h
  rw [hsplit] at h
  dsimp only at h
  split_ifs at h with htrim
  · left
    cases h
    obtain ⟨hlength, hhead, hlast⟩ := htrim
    obtain ⟨inner, rfl⟩ := List.getLast?_eq_some_iff.mp hlast
    cases inner with
    | nil => cases hhead
    | cons c inner =>
      cases hhead
      simp
  · cases h
    exact .inr ⟨rfl, htrim⟩

/-- The host that is bound is one of those that the check allows, exactly when an endpoint that begins with a
bracket has its first closing bracket directly before its last colon. -/
theorem telemetry_loopback (h : config.validate files = .ok ())
    (hplaintext : config.allowPlaintextNonLoopback = false) :
    (∃ host port, splitEndpoint config.telemetryEndpoint = .ok (host, port) ∧
      (host = "localhost".toList ∨ host = "127.0.0.1".toList ∨ host = "::1".toList ∨ host = "[::1]".toList)) ↔
    Bracketed config.telemetryEndpoint := by
  obtain ⟨host, port, hsplit, hhost, hloopback⟩ := telemetryEndpoint_passed h hplaintext
  obtain ⟨hendpoint, hport⟩ := splitLast_spec hsplit
  have hhead : config.telemetryEndpoint.head? = host.head? := by
    rw [hendpoint, List.head?_append_of_ne_nil _ hhost]
  constructor
  · rintro ⟨bound, port', hbound, hallowed⟩ hbracket
    rcases splitEndpoint_ok hsplit hbound with rfl | ⟨rfl, htrim⟩
    · have hwhole : config.telemetryEndpoint = '[' :: (bound ++ ']' :: ':' :: port) := by simp [hendpoint]
      refine ⟨bound, port, fun hmem => ?_, hport, hwhole⟩
      -- only `[::1]` has a closing bracket, and in brackets the check sees its first half
      have hdouble : bound = "[::1]".toList := by
        rcases hallowed with rfl | rfl | rfl | hdouble
        · exact absurd hmem (by decide)
        · exact absurd hmem (by decide)
        · exact absurd hmem (by decide)
        · exact hdouble
      have hchecked : endpointHost ('[' :: ("[::1]".toList ++ ']' :: ':' :: port)) = "[::1".toList := rfl
      rw [hwhole, hdouble, hchecked] at hloopback
      exact absurd hloopback (by decide)
    · rw [hhead] at hbracket
      rcases hallowed with rfl | rfl | rfl | rfl
      · cases hbracket
      · cases hbracket
      · cases hbracket
      · exact absurd (by decide) htrim
  · intro hbracketed
    by_cases hbracket : config.telemetryEndpoint.head? = some '['
    · obtain ⟨name, port', hname, hport, heq⟩ := hbracketed hbracket
      rw [heq, endpointHost_bracketed hname] at hloopback
      exact ⟨name, port', heq ▸ splitEndpoint_bracketed hport, of_decide_eq_true hloopback⟩
    · rw [endpointHost_plain hbracket hsplit] at hloopback
      exact ⟨host, port, splitEndpoint_plain (hhead ▸ hbracket) hsplit, of_decide_eq_true hloopback⟩

def noFiles : ConfigFiles where
  isRegularFile _ := false
  configuredLocation path := some [path]

theorem telemetry_loopback_bracketed : ∃ host port, splitEndpoint "[::1]:50052".toList = .ok (host, port) ∧
      (host = "localhost".toList ∨ host = "127.0.0.1".toList ∨ host = "::1".toList ∨ host = "[::1]".toList) := by
  have haccepted : ({ telemetryEndpoint := "[::1]:50052".toList } : DaemonConfig).validate noFiles = .ok () := by
    decide +kernel
  exact (telemetry_loopback haccepted rfl).mpr fun _ => ⟨"::1".toList, "50052".toList, by decide, by decide, rfl⟩

/-- The check sees `::1`, the resolver the whole text before the last colon. -/
theorem telemetry_unchecked_host :
    ({ telemetryEndpoint := "[::1]0.0.0.0:50052".toList } : DaemonConfig).validate noFiles = .ok () ∧
      splitEndpoint "[::1]0.0.0.0:50052".toList = .ok ("[::1]0.0.0.0".toList, "50052".toList) := by
  exact ⟨by decide +kernel, by decide +kernel⟩

end DaemonConfig

theorem optionValue_eq_some {argument flag value : List Char} :
    optionValue argument flag = some value ↔ argument = flag ++ '=' :: value := by
  unfold optionValue
  constructor
  · intro h
    obtain ⟨hflag, ⟨⟩⟩ := Option.ite_none_right_eq_some.mp h
    obtain ⟨rest, rfl⟩ := List.isPrefixOf_iff_prefix.mp hflag
    simp
  · rintro rfl
    simp

namespace ConfigOption

/-- The option stores the number of the duration it is the flag of, and no other duration. -/
def Stores (option : ConfigOption) : Prop :=
  ∀ config value config', option.assign config value = some config' → ∀ duration : DurationOption,
    (duration.flag = option.flag → ∃ n, parseSize value = some n ∧ duration.stored config' = signedCount n) ∧
    (duration.flag ≠ option.flag → duration.stored config' = duration.stored config)

variable {flag : String}

theorem stores_text {store : DaemonConfig → List Char → DaemonConfig}
    (hflag : ∀ d : DurationOption, d.flag ≠ flag)
    (hstore : ∀ config value (d : DurationOption), d.stored (store config value) = d.stored config) :
    (text flag store).Stores := by
  rintro config value _ ⟨⟩ d
  exact ⟨fun h => absurd h (hflag d), fun _ => hstore config value d⟩

theorem stores_size {store : DaemonConfig → ℕ → DaemonConfig} (hflag : ∀ d : DurationOption, d.flag ≠ flag)
    (hstore : ∀ config n (d : DurationOption), d.stored (store config n) = d.stored config) :
    (size flag store).Stores := by
  intro config value config' h d
  obtain ⟨n, -, rfl⟩ := Option.map_eq_some_iff.mp h
  exact ⟨fun h => absurd h (hflag d), fun _ => hstore config n d⟩

theorem stores_duration (option : DurationOption) : (duration option).Stores := by
  intro config value config' h d
  obtain ⟨n, hn, h⟩ := Option.bind_eq_some_iff.mp h
  obtain ⟨-, ⟨⟩⟩ := Option.ite_none_right_eq_some.mp h
  constructor
  · intro hflag
    obtain rfl : d = option := by cases d <;> cases option <;> first | rfl | exact absurd hflag (by decide)
    exact ⟨n, hn, by cases d <;> rfl⟩
  · intro hflag
    cases option <;> cases d <;> first | rfl | exact absurd rfl hflag

theorem stores_all : ∀ option ∈ all, option.Stores := by
  simp only [all, List.forall_mem_cons, stores_duration, true_and]
  repeat' apply And.intro
  all_goals first | apply stores_text | apply stores_size | exact fun _ h => nomatch h
  all_goals first | exact fun _ _ d => by cases d <;> rfl | exact fun d => by cases d <;> decide

theorem flag_plain : ∀ option ∈ all, '=' ∉ option.flag.toList := by
  decide

end ConfigOption

/-- The option that bounds the duration which is added. What a component asks for is below 2³² milliseconds, so
its period is no longer than that or the default period. -/
def Deadline.option : Deadline → DurationOption
  | .commandCompletion => .commandCompletionTimeout
  | .topology => .topologyPeriod
  | .sample _ => .componentDefaultSampling
  | .status => .statusPeriod
  | .error => .errorPeriod
  | .position => .positionPeriod
  | .scopePoll => .scopePeriod

namespace DaemonConfig

variable {config config' : DaemonConfig} {files : ConfigFiles} {argument : List Char}
  {arguments : List (List Char)} {b b' : Bool} {d : DurationOption} {n : ℕ}

theorem assign_of_parseArgument (h : parseArgument (config, b) argument = .ok (config', b')) :
    (∃ option ∈ ConfigOption.all, ∃ value, argument = option.flag.toList ++ '=' :: value ∧
      option.assign config value = some config') ∨
    '=' ∉ argument ∧ ∀ d : DurationOption, d.stored config' = d.stored config := by
  unfold parseArgument at h
  dsimp only at h
  split_ifs at h with hhelp htls hmtls hreflection hplaintext
  case neg =>
    split at h
    next => cases h
    next option value hfound =>
      obtain ⟨option', hmem, hvalue⟩ := List.exists_of_findSome?_eq_some hfound
      obtain ⟨value', hvalue, ⟨⟩⟩ := Option.map_eq_some_iff.mp hvalue
      split at h
      next => cases h
      next hassign =>
        cases h
        exact .inl ⟨option, hmem, value, optionValue_eq_some.mp hvalue, hassign⟩
  all_goals
    cases h
    refine .inr ⟨?_, fun d => by cases d <;> rfl⟩
  · rcases hhelp with rfl | rfl <;> decide
  all_goals
    subst argument
    decide

theorem stored_parseArgument (h : parseArgument (config, b) argument = .ok (config', b')) (d : DurationOption) :
    d.stored config' = ((d.number argument).map signedCount).getD (d.stored config) := by
  unfold DurationOption.number
  rcases assign_of_parseArgument h with ⟨option, hmem, value, rfl, hassign⟩ | ⟨hplain, hstored⟩
  · obtain ⟨hsame, hother⟩ := ConfigOption.stores_all option hmem config value config' hassign d
    by_cases hflag : d.flag = option.flag
    · obtain ⟨n, hn, hstored⟩ := hsame hflag
      rw [hflag, optionValue_eq_some.mpr rfl, Option.bind_some, hn, Option.map_some, Option.getD_some, hstored]
    · have hnone : optionValue (option.flag.toList ++ '=' :: value) d.flag.toList = none := by
        by_contra hsome
        obtain ⟨value', hvalue⟩ := Option.ne_none_iff_exists'.mp hsome
        have hflags := optionValue_eq_some.mp hvalue
        have hle := prefix_of_prefix_append_cons (ConfigOption.flag_plain option hmem) ⟨_, hflags⟩
        have hge := prefix_of_prefix_append_cons (by cases d <;> decide) ⟨_, hflags.symm⟩
        exact hflag (String.toList_injective (hge.eq_of_length_le hle.length_le))
      rw [hnone, hother hflag, Option.bind_none, Option.map_none, Option.getD_none]
  · cases hvalue : optionValue argument d.flag.toList with
    | none => exact hstored d
    | some value =>
      rw [optionValue_eq_some] at hvalue
      simp [hvalue] at hplain

theorem bind_eq_ok {α β : Type} {x : Except String α} {f : α → Except String β} {y : β}
    (h : x >>= f = .ok y) : ∃ a, x = .ok a ∧ f a = .ok y := by
  cases x with
  | error => cases h
  | ok a => exact ⟨a, rfl, h⟩

theorem stored_foldlM (d : DurationOption) :
    ∀ {config : DaemonConfig} {b : Bool}, arguments.foldlM parseArgument (config, b) = .ok (config', b') →
      d.stored config' = ((d.given arguments).map signedCount).getD (d.stored config) := by
  induction arguments with
  | nil =>
    rintro config b ⟨⟩
    rfl
  | cons argument rest ih =>
    intro config b h
    rw [List.foldlM_cons] at h
    obtain ⟨parsed, hparsed, h⟩ := bind_eq_ok h
    rw [ih h, stored_parseArgument hparsed]
    unfold DurationOption.given
    cases hnumber : d.number argument with
    | none => rw [List.filterMap_cons_none hnumber, Option.map_none, Option.getD_none]
    | some n =>
      rw [List.filterMap_cons_some hnumber, List.getLast?_cons]
      cases (rest.filterMap d.number).getLast? <;> rfl

theorem given_lt (h : d.given arguments = some n) : n < 2 ^ 64 := by
  obtain ⟨argument, -, hnumber⟩ := List.mem_filterMap.mp (List.mem_of_getLast? h)
  obtain ⟨value, -, hvalue⟩ := Option.bind_eq_some_iff.mp hnumber
  obtain ⟨⟨-, -, hlt⟩, ⟨⟩⟩ := Option.ite_none_right_eq_some.mp hvalue
  exact hlt

theorem parseConfig_eq_ok (h : parseConfig files arguments = .ok (config, b)) :
    arguments.foldlM parseArgument ({}, false) = .ok (config, b) ∧ config.validate files = .ok () := by
  obtain ⟨parsed, hparsed, h⟩ := bind_eq_ok h
  obtain ⟨_, hvalid, ⟨⟩⟩ := bind_eq_ok h
  exact ⟨hparsed, hvalid⟩

theorem durationRefused_eq_false (h : config.validate files = .ok ()) : config.durationRefused = false :=
  check_passed h (List.mem_append_right _ List.mem_cons_self)

theorem stored_pos (h : config.validate files = .ok ())
    (hd : d ≠ .commandCompletionTimeout) : 0 < d.stored config := by
  have hpassed := durationRefused_eq_false h
  simp only [durationRefused, decide_eq_false_iff_not, not_or, not_le, not_lt] at hpassed
  cases d <;> first | exact absurd rfl hd | (simp only [DurationOption.stored]; omega)

theorem stored_default (d : DurationOption) : 0 ≤ d.stored {} ∧ d.stored {} ≤ 4611686018427 := by
  cases d <;> decide

/-- A number that a positive count was made of is that count. -/
theorem signedCount_eq (hn : n < 2 ^ 64) (hpos : 0 < signedCount n) : signedCount n = n := by
  unfold signedCount at hpos ⊢
  split_ifs at hpos ⊢
  · rfl
  · omega

/-- 4611686018427 milliseconds are the last that fit into 2⁶² nanoseconds. -/
theorem addMilliseconds_ge {time count : ℤ} (htime : -2 ^ 63 ≤ time ∧ time < 2 ^ 62)
    (hcount : 0 ≤ count ∧ count ≤ 4611686018427) :
    ∃ sum, addMilliseconds time count = some sum ∧ time ≤ sum := by
  refine ⟨time + count * 1000000, ?_, by omega⟩
  unfold addMilliseconds int64
  rw [if_pos (by omega), Option.bind_some, if_pos (by omega)]

theorem addMilliseconds_late {count : ℤ} (hcount : 4611686018427 < count) :
    addMilliseconds (2 ^ 62 - 1) count = none := by
  unfold addMilliseconds int64
  split_ifs
  · rw [Option.bind_some, if_neg (by omega)]
  · rfl

/-- Every duration is the number that was given for it. -/
def StoresGiven (config : DaemonConfig) (arguments : List (List Char)) : Prop :=
  ∀ (d : DurationOption) n, d.given arguments = some n → d.stored config = n

/-- Every deadline is a time that is not over. -/
def DeadlinesAhead (config : DaemonConfig) : Prop :=
  ∀ use time, -2 ^ 63 ≤ time ∧ time < 2 ^ 62 → ∃ sum, config.deadline time use = some sum ∧ time ≤ sum

theorem stored_given (h : parseConfig files arguments = .ok (config, b)) (hgiven : d.given arguments = some n)
    (hbound : d = .commandCompletionTimeout → n ≤ 4611686018427) : d.stored config = n := by
  obtain ⟨hparsed, hvalid⟩ := parseConfig_eq_ok h
  have hstored := stored_foldlM d hparsed
  rw [hgiven, Option.map_some, Option.getD_some] at hstored
  by_cases hd : d = .commandCompletionTimeout
  · have := hbound hd
    rw [hstored, signedCount, if_pos (by omega)]
  · have hpos := stored_pos hvalid hd
    rw [hstored] at hpos ⊢
    exact signedCount_eq (given_lt hgiven) hpos

theorem samplingPeriod_bounds (h : config.validate files = .ok ()) (requested : UInt32)
    (hdefault : config.componentDefaultSamplingPeriod ≤ 4611686018427) :
    0 ≤ config.samplingPeriod requested ∧ config.samplingPeriod requested ≤ 4611686018427 := by
  have hrequested := requested.toNat_lt
  have hpassed := durationRefused_eq_false h
  simp only [durationRefused, decide_eq_false_iff_not, not_or, not_le, not_lt] at hpassed
  unfold samplingPeriod
  dsimp only
  split_ifs <;> omega

/-- Some deadline is formed of the very number that is stored. -/
theorem deadline_stored (h : config.validate files = .ok ()) (use : Deadline)
    (hpos : 0 < use.option.stored config) :
    ∃ use', ∀ time, config.deadline time use' = addMilliseconds time (use.option.stored config) := by
  cases use with
  | commandCompletion => exact ⟨.commandCompletion, fun _ => if_neg (Int.ne_of_gt hpos)⟩
  | sample requested =>
    have hpassed := durationRefused_eq_false h
    simp only [durationRefused, decide_eq_false_iff_not, not_or, not_le, not_lt] at hpassed
    have hdefault : config.samplingPeriod 0 = config.componentDefaultSamplingPeriod := by
      unfold samplingPeriod
      rw [if_pos rfl, if_neg (by omega), if_neg (by omega)]
    exact ⟨.sample 0, fun time => congrArg (addMilliseconds time) hdefault⟩
  | topology => exact ⟨.topology, fun _ => rfl⟩
  | status => exact ⟨.status, fun _ => rfl⟩
  | error => exact ⟨.error, fun _ => rfl⟩
  | position => exact ⟨.position, fun _ => rfl⟩
  | scopePoll => exact ⟨.scopePoll, fun _ => rfl⟩

/-- Durations that a deadline is formed of are within 2⁶² nanoseconds, so the deadline is ahead. -/
theorem deadlinesAhead (h : config.validate files = .ok ()) (hstored : ∀ use : Deadline,
      0 ≤ use.option.stored config ∧ use.option.stored config ≤ 4611686018427) : config.DeadlinesAhead := by
  intro use time htime
  cases use with
  | commandCompletion =>
    unfold deadline
    split_ifs
    · exact ⟨_, rfl, by omega⟩
    · exact addMilliseconds_ge htime (hstored .commandCompletion)
  | sample requested =>
    exact addMilliseconds_ge htime (samplingPeriod_bounds h requested (hstored (.sample 0)).2)
  | topology => exact addMilliseconds_ge htime (hstored .topology)
  | status => exact addMilliseconds_ge htime (hstored .status)
  | error => exact addMilliseconds_ge htime (hstored .error)
  | position => exact addMilliseconds_ge htime (hstored .position)
  | scopePoll => exact addMilliseconds_ge htime (hstored .scopePoll)

/-- Every duration is what was given and every deadline is a time that is not over, exactly when no duration that
a deadline is formed of was given as more than 2⁶² nanoseconds. -/
theorem durations_exact (h : parseConfig files arguments = .ok (config, b)) :
    config.StoresGiven arguments ∧ config.DeadlinesAhead ↔
      ∀ (use : Deadline) n, use.option.given arguments = some n → n ≤ 4611686018427 := by
  obtain ⟨hparsed, hvalid⟩ := parseConfig_eq_ok h
  constructor
  · rintro ⟨hexact, hahead⟩ use n hgiven
    by_contra hlong
    have hstored := hexact use.option n hgiven
    obtain ⟨use', hdeadline⟩ := deadline_stored hvalid use (by omega)
    obtain ⟨sum, hsum, -⟩ := hahead use' (2 ^ 62 - 1) (by omega)
    rw [hdeadline, addMilliseconds_late (by omega)] at hsum
    cases hsum
  · intro hbound
    have hexact : config.StoresGiven arguments := by
      intro d n hgiven
      refine stored_given h hgiven fun hd => hbound .commandCompletion n ?_
      rw [← hgiven, hd]
      rfl
    refine ⟨hexact, deadlinesAhead hvalid fun use => ?_⟩
    cases hgiven : use.option.given arguments with
    | some n =>
      have := hbound use n hgiven
      rw [hexact _ n hgiven]
      omega
    | none =>
      rw [stored_foldlM _ hparsed, hgiven]
      exact stored_default use.option

theorem durations_exact_timeout : ∃ config,
    parseConfig noFiles ["--command-completion-timeout-ms=250".toList] = .ok (config, false) ∧
      config.StoresGiven ["--command-completion-timeout-ms=250".toList] ∧ config.DeadlinesAhead := by
  have haccepted : parseConfig noFiles ["--command-completion-timeout-ms=250".toList] =
      .ok ({ commandCompletionTimeout := 250 }, false) := by decide +kernel
  refine ⟨_, haccepted, (durations_exact haccepted).mpr ?_⟩
  intro use n
  cases use.option with
  | commandCompletionTimeout =>
    intro hgiven
    cases (show some 250 = some n from hgiven)
    decide
  | _ => exact fun hgiven => nomatch (show none = some n from hgiven)

/-- The largest number is accepted for the completion timeout, stored as -1, and gives a deadline that is over. -/
theorem completionTimeout_expired : ∃ config,
    parseConfig noFiles ["--command-completion-timeout-ms=18446744073709551615".toList] = .ok (config, false) ∧
      config.commandCompletionTimeout = -1 ∧ config.deadline 5000000 .commandCompletion = some 4000000 := by
  exact ⟨{ commandCompletionTimeout := -1 }, by decide +kernel, rfl, by decide⟩

end DaemonConfig

end LinuxcncCtrl
