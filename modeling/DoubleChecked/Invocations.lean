import DoubleChecked.Effect.History
import DoubleChecked.Conformance

/-!
# Concurrent invocations

Any number of invocations, each of any entry point, as a pool of programs in a world
that is still open. The same pool with every program replaced by its station makes
the same runs, so the invariants of the following modules are stated at stations.
-/

namespace DoubleChecked
open Effect

variable {P R E C π ι σ χ α B : Type}

abbrev InvocationLabel (P R E C π ι χ : Type) : Type :=
  Label (Calls P R E C π) ι χ (Answer R E C π)

abbrev InvocationPool (P R E C π ι σ : Type) : Type :=
  Pool (Calls P R E C π) ι σ (Answer R E C π) (Program (Calls P R E C π) (Answer R E C π))

abbrev StationPhase (P R E C π : Type) : Type :=
  Phase (Calls P R E C π) (Answer R E C π) (Station P R E C π)

abbrev StationPool (P R E C π ι σ : Type) : Type :=
  Pool (Calls P R E C π) ι σ (Answer R E C π) (Station P R E C π)

def Phase.inTask (p : Phase (Calls P R E C π) α B) : Bool :=
  match p with
  | .inside _ o => o.startsTask
  | _ => false

def Phase.holds (p : StationPhase P R E C π) : Bool :=
  match p with
  | .idle q | .inside q _ => q.holds
  | _ => false

/-- Between a true second check and the end of the task. -/
def Phase.isCleared (p : StationPhase P R E C π) : Bool :=
  match p with
  | .idle q | .inside q _ => q.isCleared
  | _ => false

theorem Phase.holds_of_isCleared {p : StationPhase P R E C π} (h : Phase.isCleared p = true) :
    Phase.holds p = true := by
  cases p with
  | idle q => exact Station.holds_of_isCleared h
  | inside q o => exact Station.holds_of_isCleared h
  | _ => exact nomatch h

abbrev programs (ι : Type) : ι → Agent (Calls P R E C π) (Answer R E C π)
    (Program (Calls P R E C π) (Answer R E C π)) :=
  fun _ => Program.agent

variable [PanicPayload π]

def stations (invocations : ι → Invocation) (i : ι) :
    Agent (Calls P R E C π) (Answer R E C π) (Station P R E C π) :=
  (invocations i).monitor.agent (invocations i).returns

def start (invocations : ι → Invocation) (s : σ) : InvocationPool P R E C π ι σ where
  phases i := .pending (invocations i).program
  state := s

def startStations (s : σ) : StationPool P R E C π ι σ where
  phases _ := .pending .fresh
  state := s

def Tracks (invocations : ι → Invocation) (i : ι)
    (p : Program (Calls P R E C π) (Answer R E C π)) (q : Station P R E C π) : Prop :=
  p.wp (invocations i).monitor q (invocations i).returns

variable {invocations : ι → Invocation} {s : σ}

theorem start_matches : Pool.Matches (Tracks invocations) (start invocations s)
    (startStations (P := P) (R := R) (E := E) (C := C) (π := π) s) where
  phases i := .pending (program_wp (invocations i))
  state := rfl

theorem station_simulation (i : ι) : Pool.Simulation Program.agent
    (stations (P := P) (R := R) (E := E) (C := C) (π := π) invocations i) Call.admits
    (Tracks invocations i) :=
  Pool.program_simulation (invocations i).monitor (invocations i).returns

theorem step_of_replies {i : ι} {q q' : Station P R E C π} {o : Call P R E C π} {r : o.Answer}
    (h : (stations invocations i).replies q o r q') : (invocations i).Step q o r q' := by
  obtain ⟨ha, hr, rfl⟩ := h
  exact Invocation.step_of_allows ha hr

theorem isCleared_of_allows {i : Invocation} {q : Station P R E C π} {o : Call P R E C π}
    (h : i.allows q o) (ho : o.startsTask = true) : q.isCleared = true := by
  cases o with
  | task =>
    cases q with
    | cleared token => rfl
    | _ => exact h.elim
  | taskWithToken t =>
    cases q with
    | cleared token => rfl
    | _ => exact h.elim
  | _ => exact nomatch ho

theorem station_path [DecidableEq ι] {W : World (Calls P R E C π) ι σ χ}
    {ls : List (InvocationLabel P R E C π ι χ)} {c : StationPool P R E C π ι σ}
    (h : Pool.Run W (stations invocations) (startStations s) ls c) (i : ι) :
    (invocations i).monitor.Path .fresh (eventsOf i ls) (c.phases i).body :=
  Pool.Run.path (M := fun i => (invocations i).monitor) h i

theorem ended_of_returns {i : ι} {q : Station P R E C π} {a : Answer R E C π}
    (h : (stations invocations i).returns q a) :
    ∃ v cleanup f, q = .ended v cleanup f ∧ a = (invocations i).answer v cleanup f :=
  h

end DoubleChecked
