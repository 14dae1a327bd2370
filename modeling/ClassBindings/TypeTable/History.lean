import ClassBindings.TypeTable

/-! # Histories of a type table

A table that is no package's own is filled by whoever has it: with types, with aliases and with the
builtins, in any order and any number of times.  A history is a list of such operations, carried out
one after another on the table without types; one that is refused leaves it as it was.  What holds
of the empty table and is kept by each operation holds of every table with a history
(`Operation.run_induction`). -/
namespace ClassBindings.TypeTable

/-- Something done to a table of types. -/
inductive Operation where
  /-- The type may have any identity, whatever its name. -/
  | register (entry : TypeEntry)
  | registerAlias (name target : String)
  | registerBuiltins
deriving DecidableEq

namespace Operation

/-- The table after an operation, carried out or refused. -/
def apply (table : TypeTable) : Operation → TypeTable
  | register entry => Edit.left (TypeTable.register entry table)
  | registerAlias name target => Edit.left (TypeTable.registerAlias name target table)
  | registerBuiltins => table.registerBuiltins

/-- The table after a list of operations. -/
def run (table : TypeTable) (operations : List Operation) : TypeTable := operations.foldl apply table

theorem run_cons (table : TypeTable) (op : Operation) (rest : List Operation) :
    run table (op :: rest) = run (op.apply table) rest := rfl

theorem run_append (table : TypeTable) (first second : List Operation) :
    run table (first ++ second) = run (run table first) second := List.foldl_append

/-- **What each operation keeps, every history keeps.** -/
theorem run_induction {motive : TypeTable → Prop} {operations : List Operation}
    (step : ∀ op ∈ operations, ∀ table, motive table → motive (op.apply table))
    {table : TypeTable} (h : motive table) : motive (run table operations) := by
  induction operations generalizing table with
  | nil => exact h
  | cons op rest ih =>
    exact ih (fun o ho => step o (List.mem_cons_of_mem _ ho)) (step op List.mem_cons_self table h)

end Operation

/-- The table with this history. -/
def ofHistory (operations : List Operation) : TypeTable := Operation.run empty operations

end ClassBindings.TypeTable
