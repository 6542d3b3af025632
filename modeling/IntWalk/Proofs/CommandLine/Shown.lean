import IntWalk.CommandLine.Run
import IntWalk.Proofs.Cursor.Journal

/-!
# What a command shows

What a command amounts to is its answer or its complaint, and a log.  The user sees of it what
the filter lets through of the log, and either the answer on standard output (`Prints`) or the
complaint in its place (`Fails`).  Without a setting there is a log only if it is to be verbose,
and then it tells of the removals and of how a walk has ended.
-/

namespace IntWalk

open CommandLine

namespace Command

variable {c : Command} {text : String} {why : Complaint} {args : List String}
variable {setting : Option String} {verbose : Bool} {f : LogFilter}

/-! ## The log without a setting -/

/-- Events do not matter enough to be shown unasked, and vain requests, bridges and cuts not even
enough for a verbose log. -/
lemma shows_record (verbose : Bool) (e : Event) :
    (defaultFilter verbose).shows e.record = (verbose && e.isRemoval) := by
  rw [defaultFilter, LogFilter.shows_downTo]
  cases verbose <;> cases e <;> rfl

lemma shows_of_info {r : Record} (h : r.level = .info) (verbose : Bool) :
    (defaultFilter verbose).shows r = verbose := by
  rw [defaultFilter, LogFilter.shows_downTo, h]
  cases verbose <;> rfl

/-- The log is one of events, and behind them of how a walk has ended. -/
structure Logs (log : List Record) (es : List Event) (ending : List Record) : Prop where
  log_eq : log = es.map Event.record ++ ending
  ending_info : ∀ r ∈ ending, r.level = .info

lemma logs_events (es : List Event) : Logs (es.map Event.record) es [] :=
  ⟨(List.append_nil _).symm, nofun⟩

lemma logs_finished (es : List Event) (message : String) (removed remaining : Nat) :
    Logs (es.map Event.record ++ [finished message removed remaining]) es
      [finished message removed remaining] := by
  refine ⟨rfl, fun r hr => ?_⟩
  rw [List.mem_singleton.1 hr]
  rfl

lemma exists_logs (c : Command) : ∃ es ending, Logs c.run.log es ending := by
  cases c with
  | walk values remove removeEven =>
    simp only [run, runWalk]
    split
    · exact ⟨_, _, logs_events _⟩
    · exact ⟨_, _, logs_finished ..⟩
  | bits capacity values remove =>
    simp only [run, runBits]
    split
    · exact ⟨_, _, logs_events []⟩
    · split
      · exact ⟨_, _, logs_events []⟩
      · split
        · exact ⟨_, _, logs_events _⟩
        · exact ⟨_, _, logs_finished ..⟩
  | parts total values => exact ⟨_, _, logs_events _⟩

/-- What is shown of a log without a setting. -/
lemma Logs.filter_defaultFilter {log ending : List Record} {es : List Event}
    (h : Logs log es ending) (verbose : Bool) : log.filter (defaultFilter verbose).shows =
      if verbose then (es.filter Event.isRemoval).map Event.record ++ ending else [] := by
  have hending : ending.filter (defaultFilter verbose).shows = if verbose then ending else [] := by
    have hshows : ∀ r ∈ ending, (defaultFilter verbose).shows r = verbose :=
      fun r hr => shows_of_info (h.ending_info r hr) verbose
    cases verbose with
    | false => simpa using hshows
    | true => exact List.filter_eq_self.2 hshows
  rw [h.log_eq, List.filter_append, List.filter_map, hending]
  simp only [Function.comp_def, shows_record]
  cases verbose <;> simp

/-! ## Running a command -/

section Read

variable (hread : read args = some ⟨verbose, c⟩) (hfilter : filter? setting verbose = some f)
include hread hfilter

lemma execute_of_ok (h : c.run.result = .ok text) :
    execute args setting = .done text ((c.run.log.filter f.shows).map Record.line) := by
  simp only [execute, hread, hfilter, h]

lemma execute_of_error (h : c.run.result = .error why) :
    execute args setting = .failed why.message ((c.run.log.filter f.shows).map Record.line) := by
  simp only [execute, hread, hfilter, h]

end Read

/-- Without a setting, the log of a command that was read has lines only if it is to be verbose:
one for each removal, in order, and behind them how a walk has ended. -/
theorem log_without_setting (hread : read args = some ⟨verbose, c⟩) :
    ∃ es ending, Logs c.run.log es ending ∧ (execute args none).log =
      if verbose then ((es.filter Event.isRemoval).map Event.record ++ ending).map Record.line
      else [] := by
  obtain ⟨es, ending, h⟩ := c.exists_logs
  refine ⟨es, ending, h, ?_⟩
  have hlog : (execute args none).log =
      (c.run.log.filter (defaultFilter verbose).shows).map Record.line := by
    cases hresult : c.run.result with
    | ok text => rw [execute_of_ok hread rfl hresult, Report.log]
    | error why => rw [execute_of_error hread rfl hresult, Report.log]
  rw [hlog, h.filter_defaultFilter]
  cases verbose <;> rfl

example : (execute ["walk", "4", "7", "--remove", "7", "-v"] none).log =
    ["DEBUG intcursor::collections::list: removed list value index=1 len=1",
      "INFO intcursor: list walk finished removed=1 remaining=1"] := by cbv

/-! ## Answers and complaints -/

/-- However the command is asked for, it prints the text and does not complain, and nothing else
is to be seen where no log is asked for. -/
structure Prints (c : Command) (text : String) : Prop where
  result : c.run.result = .ok text
  seen : ∀ args setting verbose f, read args = some ⟨verbose, c⟩ →
    filter? setting verbose = some f →
    (execute args setting).output = text ∧ (execute args setting).complaint = "" ∧
      (execute args setting).code = 0
  alone : ∀ args, read args = some ⟨false, c⟩ → execute args none = .done text []

/-- The words of a complaint: what the command was about to do, and why it could not. -/
def complaintText (what why : String) : String := s!"Error: {what}\n\nCaused by:\n    {why}\n"

/-- However the command is asked for, it prints nothing and complains in these words, and nothing
else is to be seen where no log is asked for. -/
structure Fails (c : Command) (why : Complaint) (text : String) : Prop where
  result : c.run.result = .error why
  seen : ∀ args setting verbose f, read args = some ⟨verbose, c⟩ →
    filter? setting verbose = some f →
    (execute args setting).output = "" ∧ (execute args setting).complaint = text ∧
      (execute args setting).code = 1
  alone : ∀ args, read args = some ⟨false, c⟩ → execute args none = .failed text []

lemma prints_of_result (h : c.run.result = .ok text) : c.Prints text where
  result := h
  seen args setting verbose f hread hfilter := by
    rw [execute_of_ok hread hfilter h]
    exact ⟨rfl, rfl, rfl⟩
  alone args hread := by
    obtain ⟨es, ending, -, hlog⟩ := log_without_setting hread
    rw [execute_of_ok hread rfl h] at hlog ⊢
    exact congrArg (Report.done text) hlog

lemma fails_of_result (h : c.run.result = .error why) (htext : why.message = text) :
    c.Fails why text where
  result := h
  seen args setting verbose f hread hfilter := by
    rw [execute_of_error hread hfilter h, ← htext]
    exact ⟨rfl, rfl, rfl⟩
  alone args hread := by
    obtain ⟨es, ending, -, hlog⟩ := log_without_setting hread
    rw [execute_of_error hread rfl h, htext] at hlog ⊢
    exact congrArg (Report.failed text) hlog

end Command

end IntWalk
