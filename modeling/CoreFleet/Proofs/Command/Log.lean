import CoreFleet.Proofs.Command.Session
import CoreFleet.Proofs.Fleet.Cores

/-!
# The log of a session

What a session writes is decided by the command line, the file and the signals. The threads of the
fleet have no part in it. `sessionLines` writes the log of a session whose fleet was started, and
`log_of_session` says when there is such a log, and what is written otherwise.
-/

namespace CoreFleet.Command

/-! ## The lines -/

/-- The line on a running worker, with or without the heartbeat. -/
def workerLine (id : Nat) (beats : Bool) : Line where
  level := .info
  message := "worker " ++ Numeral.text id ++ ": running, " ++
    if beats then "block heartbeat" else "unassigned"

/-- The lines that answer a request for reports. -/
def dumpLines (ids : List Nat) (heartbeat : Option Nat) : List Line :=
  { level := .info, message := "Received SIGUSR1" } ::
    ids.mapIdx fun k id => workerLine id (place ids heartbeat = some k)

/-- The lines on a fleet with these workers, which answers `n` requests until a signal ends it. -/
def sessionLines (o : Launch.Options) (ids : List Nat) (heartbeat : Option Nat) (n : Nat)
    (last : Signal) : List Line :=
  [{ level := .info, message := "PID" },
    { level := .info
      message := "EAL options left to the packet engine"
      fields := [("memory_channels", Entry.optionText o.memoryChannels),
        ("passthrough", Entry.listText o.passthrough)] }] ++
  ((heartbeat.filter (· ∉ ids)).toList.map fun id =>
    { level := .warn
      message := "Heartbeat not enabled: unknown worker " ++ Numeral.text id
      fields := [("worker", Numeral.text id)] }) ++
  [{ level := .info
     message := "Workers started"
     fields := [("workers", Numeral.text ids.length)] }] ++
  (List.replicate n (dumpLines ids heartbeat)).flatten ++
  [{ level := .info, message := "Shutting down", fields := [("signal", last.name)] }]

section Lines

variable {ids : List Nat} {heartbeat : Option Nat}

theorem line_reported (id : Nat) (beats : Prop) [Decidable beats] :
    (Entry.reported ⟨id, .running, if beats then some "block heartbeat" else none, none⟩).line =
      workerLine id beats := by
  by_cases h : beats <;>
    simp [h, Entry.line, Report.text, workerLine, State.text, String.append_assoc]

theorem line_dump :
    (Entry.asked :: (reports ids (place ids heartbeat)).map .reported).map Entry.line =
      dumpLines ids heartbeat := by
  refine congrArg (List.cons _) (List.ext_getElem? fun k => ?_)
  simp only [reports, List.getElem?_map, List.getElem?_mapIdx]
  cases ids[k]? with
  | none => rfl
  | some id => exact congrArg some (line_reported id _)

theorem line_warnings : (warnings ids heartbeat).map Entry.line =
    (heartbeat.filter (· ∉ ids)).toList.map fun id =>
      { level := .warn
        message := "Heartbeat not enabled: unknown worker " ++ Numeral.text id
        fields := [("worker", Numeral.text id)] } := by
  cases heartbeat with
  | none => rfl
  | some id =>
    by_cases hid : id ∈ ids
    · simp [warnings, hid]
    · have hliteral : "Heartbeat not enabled: " ++ "unknown worker " =
          "Heartbeat not enabled: unknown worker " := rfl
      have hkept : (some id).filter (· ∉ ids) = some id := by simp [hid]
      rw [warnings, if_neg hid, hkept, ← hliteral]
      simp only [String.append_assoc]
      rfl

/-- Where identifiers are distinct, the heartbeat is in the line of its worker alone. -/
theorem dumpLines_eq (hids : ids.Nodup) : dumpLines ids heartbeat =
    { level := .info, message := "Received SIGUSR1" } ::
      ids.map fun id => workerLine id (heartbeat = some id) := by
  refine congrArg (List.cons _) (List.ext_getElem? fun k => ?_)
  rw [List.getElem?_mapIdx, List.getElem?_map]
  cases hk : ids[k]? with
  | none => rfl
  | some id => simp [place_eq_some_iff hids hk]

end Lines

/-! ## The log -/

/-- The journal of a session that starts the workers and answers `n` requests until a signal ends
it. -/
def entries (o : Launch.Options) (heartbeat : Option Nat) (n : Nat) (last : Signal) : List Entry :=
  let ids := o.workers.map (·.id)
  [.began, .leftover o.memoryChannels o.passthrough] ++ warnings ids heartbeat ++
    [.started o.workers.length] ++
    (List.replicate n (.asked :: (reports ids (place ids heartbeat)).map .reported)).flatten ++
    [.ending last]

theorem line_entries (o : Launch.Options) (heartbeat : Option Nat) (n : Nat) (last : Signal) :
    (entries o heartbeat n last).map Entry.line =
      sessionLines o (o.workers.map (·.id)) heartbeat n last := by
  simp only [entries, List.map_append, List.map_flatten, List.map_replicate, line_dump,
    line_warnings, sessionLines]
  simp [Entry.line]

theorem unstarted_not_mem_entries (o : Launch.Options) (heartbeat : Option Nat) (n : Nat)
    (last : Signal) (e : Error) : .unstarted e ∉ entries o heartbeat n last := by
  cases heartbeat with
  | none => simp [entries, warnings]
  | some id => by_cases hid : id ∈ o.workers.map (·.id) <;> simp [entries, warnings, hid]

variable {allowed : Nat → Bool} {file : String → Config.Contents} {args : List String}
  {events : List Event} {flags : Flags} {ending : Ending}

section Run

variable {available : List Nat} {c : Config} {o : Launch.Options}

theorem run_of_unconfigured {e : Config.LoadError} (hargs : Invocation.ofArgs args = .run flags)
    (hc : configure file flags = .error e) : run available file args events =
      { exitCode := 1, journal := [.began, .unconfigured e.message] } := by
  rw [run, hargs]
  dsimp only
  rw [hc]
  rfl

theorem run_of_begin (hargs : Invocation.ofArgs args = .run flags)
    (hc : configure file flags = .ok c) : run available file args events =
      match Session.begin available c with
      | .error journal => { exitCode := 1, journal }
      | .ok s =>
        { exitCode := 0
          journal := (events.foldl Session.step s).journal
          heartbeat := s.hasHeartbeat } := by
  rw [run, hargs]
  dsimp only
  rw [hc]
  rfl

theorem begin_of_refusal {why : Launch.Refusal}
    (ho : Launch.Options.parse available c.launch.toArgs = .error why) :
    Session.begin available c = .error [.began, .uninitialized why.toError] := by
  simp [Session.begin, Launch.bringUp, ho]

theorem line_uninitialized (why : Launch.Refusal) : (Entry.uninitialized why.toError).line =
    ⟨.error, "Runtime initialization failed: runtime initialization failed: " ++ why.reason,
      [("errno", "-22")]⟩ := by
  have hliteral : "Runtime initialization failed: " ++ "runtime initialization failed: " =
      "Runtime initialization failed: runtime initialization failed: " := rfl
  have hraw : Numeral.signedText (-22) = "-22" := by decide +kernel
  rw [← hliteral, String.append_assoc, ← hraw]
  rfl

theorem run_of_parse {n : Nat} {last : Signal} {more : List Signal}
    (hargs : Invocation.ofArgs args = .run flags) (hc : configure file flags = .ok c)
    (ho : Launch.Options.parse available c.launch.toArgs = .ok o)
    (hsignals : signals events = List.replicate n .usr1 ++ last :: more) (hlast : last ≠ .usr1) :
    run available file args events =
      { exitCode := 0
        journal := entries o c.heartbeat.worker n last
        heartbeat := (place (o.workers.map (·.id)) c.heartbeat.worker).isSome } := by
  obtain ⟨s, hbegin, hfleet, hended, hdump, hjournal, hheartbeat⟩ := Session.begin_eq_ok ho
  have hrun := Session.foldl_step hfleet hended hsignals hlast
  rw [run_of_begin hargs hc, hbegin]
  dsimp only
  rw [hrun, hdump, hjournal, hheartbeat]
  rfl

end Run

/-- What a session of an accepted command line writes, in which a signal to end comes. If the
configuration cannot be read, or its arguments are refused, the process fails with one line on the
error, and there is no session. Else the log is that of `sessionLines`, the workers being the cores
other than the main one : there is a warning if the heartbeat is for a core that is no worker, and
each request before the signal that ends the session is answered with one line for each worker, in
increasing order. Before the start, no step of a thread changes anything. The start is never
refused.

As long as no argument is longer than `2 ^ 30`, so that no position of a mask is cut to a word, no
worker is named twice, all but one of the cores are workers, and the heartbeat is in the line of its
worker alone. -/
theorem log_of_session (hargs : Invocation.ofArgs args = .run flags)
    (hrun : run (CoreSet.available allowed) file args events = ending)
    (hend : ∃ s ∈ signals events, s ≠ .usr1) :
    (∀ e, .unstarted e ∉ ending.journal) ∧
    (∀ e, configure file flags = .error e → ending.exitCode = 1 ∧
      ending.journal.map Entry.line = [⟨.info, "PID", []⟩, ⟨.error, e.message, []⟩]) ∧
    ∀ c, configure file flags = .ok c →
      (∀ why, Launch.Options.parse (CoreSet.available allowed) c.launch.toArgs = .error why →
        ending.exitCode = 1 ∧ (∀ s, Session.begin (CoreSet.available allowed) c ≠ .ok s) ∧
        ending.journal.map Entry.line = [⟨.info, "PID", []⟩,
          ⟨.error, "Runtime initialization failed: runtime initialization failed: " ++ why.reason,
            [("errno", "-22")]⟩]) ∧
      ∀ o ids, Launch.Options.parse (CoreSet.available allowed) c.launch.toArgs = .ok o →
        ids = o.cores.filter (fun id => id ≠ o.mainLcore) →
        (∀ s ∈ [none, c.heartbeat.worker].map (Session.ofOptions c.tuning o).enableHeartbeat,
          ∀ i outcome now f, s.fleet.turn? i outcome now = some f → f = s.fleet) ∧
        (∃ n last more, signals events = List.replicate n .usr1 ++ last :: more ∧ last ≠ .usr1 ∧
          ending.exitCode = 0 ∧
          ending.journal.map Entry.line = sessionLines o ids c.heartbeat.worker n last) ∧
        (ending.heartbeat = true ↔ ∃ id ∈ ids, c.heartbeat.worker = some id) ∧
        ids.Pairwise (· ≤ ·) ∧
        ((∀ arg ∈ c.launch.toArgs, arg.length ≤ 2 ^ 30) → CoreSet.Sorted ids ∧
          ids.length + 1 = o.cores.length ∧ dumpLines ids c.heartbeat.worker =
            { level := .info, message := "Received SIGUSR1" } ::
              ids.map fun id => workerLine id (c.heartbeat.worker = some id)) := by
  subst hrun
  cases hc : configure file flags with
  | error e =>
    rw [run_of_unconfigured hargs hc]
    refine ⟨by simp, ?_, nofun⟩
    rintro _ ⟨⟩
    exact ⟨rfl, rfl⟩
  | ok c =>
    cases ho : Launch.Options.parse (CoreSet.available allowed) c.launch.toArgs with
    | error why =>
      have hbegin := begin_of_refusal ho
      rw [run_of_begin hargs hc, hbegin]
      refine ⟨by simp, nofun, ?_⟩
      rintro _ ⟨⟩
      refine ⟨fun why' hwhy => ?_, fun o ids hparse => nomatch ho.symm.trans hparse⟩
      obtain rfl := Except.error.inj (ho.symm.trans hwhy)
      refine ⟨rfl, fun s hs => ?_, congrArg (fun l => [_, l]) (line_uninitialized why)⟩
      exact nomatch hbegin.symm.trans hs
    | ok o =>
      obtain ⟨n, last, more, hsignals, hlast⟩ := exists_requests hend
      rw [run_of_parse hargs hc ho hsignals hlast]
      refine ⟨unstarted_not_mem_entries o _ n last, nofun, ?_⟩
      rintro _ ⟨⟩
      refine ⟨fun why hwhy => (nomatch ho.symm.trans hwhy), ?_⟩
      rintro _ ids ho' rfl
      obtain rfl := Except.ok.inj (ho.symm.trans ho')
      rw [← o.ids_workers]
      refine ⟨?_, ⟨n, last, more, hsignals, hlast, rfl, line_entries o _ n last⟩, isSome_place, ?_,
        ?_⟩
      · intro s hs i outcome now f hturn
        obtain ⟨heartbeat, -, rfl⟩ := List.mem_map.1 hs
        exact Session.turn?_enableHeartbeat hturn
      · rw [o.ids_workers]
        exact (Launch.increasing_cores (CoreSet.sorted_available allowed) ho).filter _
      · intro hlength
        obtain ⟨hproper, -, hmain⟩ :=
          Launch.proper_cores (CoreSet.proper_available allowed) hlength ho
        have hsorted := Launch.Options.sorted_workers hproper.sorted
        refine ⟨hsorted, ?_, dumpLines_eq (hsorted.imp Nat.ne_of_lt)⟩
        rw [List.length_map]
        exact Launch.Options.length_workers hmain (hproper.sorted.imp Nat.ne_of_lt)

/-- The document `{"heartbeat":{"thread_id":2}}`. -/
def heartbeatFile : String := "\x7b\"heartbeat\":\x7b\"thread_id\":2\x7d\x7d"

/-- The heartbeat is given to worker 2, reports are asked for after a step of this worker, and a
signal ends the session. -/
theorem log_of_session_heartbeat :
    Invocation.ofArgs ["-l", "0-2", "-c", "fleet.json"] =
        .run ⟨some "fleet.json", none, some "0-2", none⟩ ∧
      ∃ events ending, events = [.turn 1 0, .signal .usr1, .signal .int, .signal .usr1] ∧
        (∃ s ∈ signals events, s ≠ .usr1) ∧
        run (CoreSet.available fun _ => true) (fun _ => .ok heartbeatFile.toUTF8)
          ["-l", "0-2", "-c", "fleet.json"] events = ending ∧
        ending.exitCode = 0 ∧ ending.heartbeat = true ∧
        ending.journal.map (fun e => e.line.text) =
          ["INFO PID",
            "INFO EAL options left to the packet engine memory_channels=Some(4) passthrough=[]",
            "INFO Workers started workers=2",
            "INFO Received SIGUSR1",
            "INFO worker 1: running, unassigned",
            "INFO worker 2: running, block heartbeat",
            "INFO Shutting down signal=SIGINT"] := by
  have hargs : Invocation.ofArgs ["-l", "0-2", "-c", "fleet.json"] =
      .run ⟨some "fleet.json", none, some "0-2", none⟩ := by decide
  have hend : ∃ s ∈ signals [.turn 1 0, .signal .usr1, .signal .int, .signal .usr1], s ≠ .usr1 :=
    ⟨.int, by decide, by decide⟩
  have hc : configure (fun _ => .ok heartbeatFile.toUTF8)
      ⟨some "fleet.json", none, some "0-2", none⟩ =
        .ok { launch := { coreMask := none, coreList := some "0-2" }
              heartbeat := ⟨some 2, 1000⟩ } := rfl
  have ho : Launch.Options.parse (CoreSet.available fun _ => true)
      (Config.Launch.toArgs { coreMask := none, coreList := some "0-2" }) =
        .ok ⟨"dummy", [0, 1, 2], 0, some 4, [], 5⟩ := by decide +kernel
  obtain ⟨-, -, hlog⟩ := log_of_session hargs rfl hend
  obtain ⟨-, hstarted⟩ := hlog _ hc
  obtain ⟨-, ⟨n, last, more, hsignals, hlast, hcode, hlines⟩, hheartbeat, -⟩ :=
    hstarted _ [1, 2] ho rfl
  obtain ⟨rfl, rfl⟩ : n = 1 ∧ last = .int := by
    rcases n with _ | _ | n
    · exact absurd (List.cons.inj hsignals).1.symm hlast
    · exact ⟨rfl, (List.cons.inj (List.cons.inj hsignals).2).1.symm⟩
    · exact Signal.noConfusion (List.cons.inj (List.cons.inj hsignals).2).1
  refine ⟨hargs, _, _, rfl, hend, rfl, hcode, hheartbeat.2 ⟨2, by decide, rfl⟩, ?_⟩
  have htexts := congrArg (List.map Line.text) hlines
  rw [List.map_map] at htexts
  refine htexts.trans ?_
  decide +kernel

end CoreFleet.Command
