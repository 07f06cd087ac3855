import LibRedis.ServerData

/-!
# Servers over a table

A server that keeps its data in a value of any type is given by what it answers to a request and
what it makes of the data. It applies commands as documented if the commands that only read leave
the data. It has one database.
-/

namespace LibRedis

open Decimal (ascii)
open Resp (Reply)

/-- What such a server knows. -/
structure Table (δ : Type) where
  /-- The database of the connection. -/
  db : Int32
  /-- The requests executed so far. -/
  executed : List (Int32 × List Bytes)
  /-- The data. -/
  data : δ

/-- What such a server does with a request that is not SELECT. -/
structure TableRules (δ : Type) where
  /-- The reply. -/
  answer : δ → List Bytes → Reply
  /-- The data behind it. -/
  next : δ → List Bytes → δ
  /-- Replies are well formed. -/
  wellFormed (data : δ) (args : List Bytes) : (answer data args).WellFormed
  /-- Three commands of the table are not answered by an array here. -/
  flat (data : δ) (args : List Bytes)
    (named : commandOf args = .sort ∨ commandOf args = .zrank ∨ commandOf args = .zrevrank) :
    ¬ IsArray (answer data args)
  /-- Commands that only read leave the data. -/
  reads (data : δ) (args : List Bytes)
    (named : (commandOf args).readsOnly = true ∨ commandOf args = .sort) : next data args = data

namespace TableRules

variable {δ : Type}

/-- The server. -/
def server (rules : TableRules δ) : Server (Table δ) where
  fresh state := { state with db := 0 }
  handle state args :=
    if commandOf args = .select then
      if args.tail = [Decimal.intText 0] then (.status (ascii "OK"), { state with db := 0 })
      else (.error (ascii "ERR"), state)
    else
      (rules.answer state.data args,
        { state with
          executed := state.executed ++ [(state.db, args)]
          data := rules.next state.data args })

/-- What it does with SELECT. -/
theorem handle_select (rules : TableRules δ) (state : Table δ) {args : List Bytes}
    (named : commandOf args = .select) : rules.server.handle state args =
      if args.tail = [Decimal.intText 0] then (.status (ascii "OK"), { state with db := 0 })
      else (.error (ascii "ERR"), state) := by
  simp only [server, if_pos named]

/-- What it does with another request. -/
theorem handle_other (rules : TableRules δ) (state : Table δ) {args : List Bytes}
    (named : commandOf args ≠ .select) : rules.server.handle state args =
      (rules.answer state.data args,
        { state with
          executed := state.executed ++ [(state.db, args)]
          data := rules.next state.data args }) := by
  simp only [server, if_neg named]

/-- SELECT leaves the data, and what was executed. -/
theorem handle_select_keeps (rules : TableRules δ) (state : Table δ) {args : List Bytes}
    (named : commandOf args = .select) :
    (rules.server.handle state args).2.data = state.data ∧
      (rules.server.handle state args).2.executed = state.executed := by
  rw [rules.handle_select state named]
  split_ifs <;> exact ⟨rfl, rfl⟩

/-- What becomes of the data depends on the data only. -/
theorem handle_alike (rules : TableRules δ) {state state' : Table δ} (args : List Bytes)
    (same : state.data = state'.data) :
    (rules.server.handle state args).2.data = (rules.server.handle state' args).2.data := by
  by_cases named : commandOf args = .select
  · rw [(rules.handle_select_keeps state named).1, (rules.handle_select_keeps state' named).1, same]
  · rw [rules.handle_other state named, rules.handle_other state' named]
    exact congrArg (rules.next · args) same

/-- So does the reply. -/
theorem handle_answers (rules : TableRules δ) {state state' : Table δ} (args : List Bytes)
    (same : state.data = state'.data) :
    (rules.server.handle state args).1 = (rules.server.handle state' args).1 := by
  by_cases named : commandOf args = .select
  · rw [rules.handle_select state named, rules.handle_select state' named]
    split_ifs <;> rfl
  · rw [rules.handle_other state named, rules.handle_other state' named]
    exact congrArg (rules.answer · args) same

/-- A request that leaves the data by the rules leaves them. -/
theorem handle_leaves (rules : TableRules δ) (state : Table δ) {args : List Bytes}
    (named : commandOf args ≠ .select) (leaves : rules.next state.data args = state.data) :
    (rules.server.handle state args).2.data = state.data := by
  rw [rules.handle_other state named]
  exact leaves

/-- The server applies commands as documented. -/
def docs (rules : TableRules δ) : Documented rules.server δ where
  db := Table.db
  executed := Table.executed
  wellFormed state args := by
    by_cases named : commandOf args = .select
    · rw [rules.handle_select state named]
      split_ifs
      · exact .status (by decide)
      · exact .error (by decide)
    · rw [rules.handle_other state named]
      exact rules.wellFormed state.data args
  fresh state := ⟨rfl, rfl⟩
  select state args named index asks := by
    refine ⟨(rules.handle_select_keeps state named).2, ?_⟩
    rw [rules.handle_select state named]
    split_ifs with zero
    · have same := Decimal.intText_injective (List.singleton_inj.mp (zero.symm.trans asks))
      have zero : (0 : Int32) = index := Int32.toInt_inj.mp same
      exact Or.inl ⟨rfl, zero⟩
    · exact Or.inr ⟨⟨_, rfl⟩, rfl⟩
  other state args named := by
    rw [rules.handle_other state named]
    exact ⟨rfl, rfl⟩
  data := Table.data
  fresh_data state := rfl
  select_data state args named := (rules.handle_select_keeps state named).1
  reads_data state args reads := by
    have other : commandOf args ≠ .select := fun named => by rw [named] at reads; cases reads
    exact rules.handle_leaves state other (rules.reads state.data args (Or.inl reads))
  sort_data state args named shows := by
    have other : commandOf args ≠ .select := by rw [named]; decide
    exact rules.handle_leaves state other (rules.reads state.data args (Or.inr named))
  sort_stores state args named stores := by
    have other : commandOf args ≠ .select := by rw [named]; decide
    rw [rules.handle_other state other]
    exact rules.flat state.data args (Or.inl named)
  writes_data state state' args writes sameDb sameData := rules.handle_alike args sameData
  members _ _ _ := []
  spop_data state state' args named sameDb sameData settled := rules.handle_alike args sameData
  rank state args named := by
    have other : commandOf args ≠ .select := by
      rcases named with named | named <;> rw [named] <;> decide
    rw [rules.handle_other state other]
    exact rules.flat state.data args (Or.inr named)
  Determined _ := True
  answers state state' args determined sameDb sameData := rules.handle_answers args sameData

end TableRules

end LibRedis
