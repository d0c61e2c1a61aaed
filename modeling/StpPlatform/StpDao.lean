import StpPlatform.ResourceTrace
import StpPlatform.NegotiateGuarantees
import StpPlatform.StpServer
import Mathlib.Data.List.TakeWhile

/-! # The database access (`stpserver/stp_dao`)

    `CheckStpGuidValid` asks whether a guid is deployed, `InsertCryptoStatus`
    records a negotiated key.  The `mysql` library under them is known only by
    how its calls end: every call answers, answers `NULL` or `-1`, or throws.

    Both functions take a connection and a statement and give them back behind
    the last call, inside the `try` block: `no_leak_iff` says that they leak
    exactly when a call throws after the connection was taken.

    The columns of `stp_status` are named in the SQL text, the parameters are
    bound by their numbers: `status_row_iff` says when the row is the token. -/

namespace StpDao

open ResourceTrace Rpc SysVShm StpDetail StpNegotiate StpInvariant StpContract
  StpGuarantee StpServer

/-! ## The `mysql` library -/

/-- How a call ends: it succeeds, answers `NULL` or `-1` (`Next`: there is no
    row), or throws a `std::exception`. -/
inductive Outcome where
  | ok
  | null
  | threw
  deriving DecidableEq

/-- How the calls of one use of the library end; `set n` is the setter of
    parameter number `n`, `execute` is `ExecuteQuery` or `ExecuteUpdate`. -/
structure DbEnv where
  getConnection : Outcome
  prepareStatement : Outcome
  set : Nat → Outcome
  execute : Outcome
  next : Outcome

/-- What the library hands out. -/
inductive Kind where
  | conn
  | stmt
  | result
  deriving DecidableEq

/-- The columns of `stp_status`. -/
inductive Column where
  | stpGuid
  | stpKey
  | expires
  | stpGroup
  | idx
  | insertTime
  | stpDesc
  deriving DecidableEq

/-- A value of a column or a parameter. -/
inductive Value where
  | null
  | int (i : Int)
  | text (bytes : List UInt8)
  | now
  deriving DecidableEq

/-- The values of a row by column; a column may have none. -/
abbrev Row : Type := Column → Option Value

/-- What the functions do that others can see. -/
inductive DbEvent where
  | resource (op : Op Kind)
  | update (row : Row)

/-- A member of `values(...)`. -/
inductive SqlExpr where
  | param
  | now

/-- `insert into stp_status(columns) values(values);`. -/
structure InsertStatement where
  columns : List Column
  values : List SqlExpr

/-- The values in order; parameter `n` stands for the `n`-th question mark. -/
def bindValues (params : Nat → Value) : Nat → List SqlExpr → List Value
  | _, [] => []
  | n, .param :: es => params n :: bindValues params (n + 1) es
  | n, .now :: es => .now :: bindValues params n es

/-- The row that a statement with its parameters stands for. -/
def InsertStatement.row (s : InsertStatement) (params : Nat → Value) : Row :=
  fun c => (s.columns.zip (bindValues params 0 s.values)).lookup c

/-- A call on an object that the function holds. -/
def call (on : Kind) (o : Outcome) : Act DbEvent Bool := do
  Act.emit [.resource (.use on)]
  match o with
  | .ok => pure true
  | .null => pure false
  | .threw => Act.throw

/-- What a call that answers a pointer gives: `NULL`, or a new object. -/
def fetch (k : Kind) (o : Outcome) : Act DbEvent Bool :=
  match o with
  | .ok => do
      Act.emit [.resource (.acquire k)]
      pure true
  | .null => pure false
  | .threw => Act.throw

/-- `delete`, or `pool.ReleaseConnection`. -/
def release (k : Kind) : Act DbEvent Unit := Act.emit [.resource (.release k)]

/-- The setters in order; what a setter answers is not looked at. -/
def setParams (set : Nat → Outcome) :
    List (Nat × Value) → (Nat → Value) → Act DbEvent (Nat → Value)
  | [], params => pure params
  | (n, v) :: rest, params => do
      let bound ← call .stmt (set n)
      setParams set rest (if bound then Function.update params n v else params)

/-- What both functions do around the statement they execute. -/
def withStatement (e : DbEnv) (setters : List (Nat × Value))
    (execute : (Nat → Value) → Act DbEvent Bool) : Act DbEvent Bool :=
  Act.catching
    (do
      let conn ← fetch .conn e.getConnection
      if !conn then pure false
      else
        Act.emit [.resource (.use .conn)]
        let stmt ← fetch .stmt e.prepareStatement
        if !stmt then
          release .conn
          pure false
        else
          let params ← setParams e.set setters (fun _ => .null)
          let res ← execute params
          release .stmt
          release .conn
          pure res)
    false

/-! ## The functions -/

/-- A `uint64_t` passed as `int64_t`. -/
def int64 (x : UInt64) : Int := x.toInt64.toInt

/-- `ExecuteQuery`, and whether the result has a row. -/
def queryRow (e : DbEnv) : Act DbEvent Bool := do
  Act.emit [.resource (.use .stmt)]
  let result ← fetch .result e.execute
  if result then
    let row ← call .result e.next
    release .result
    pure row
  else pure false

/-- `bool StpDao::CheckStpGuidValid(uint64_t)`, with the statement
    `select stp_guid from stp_deploy where stp_guid=?;`. -/
def checkStpGuidValid (e : DbEnv) (stpGuid : UInt64) : Act DbEvent Bool :=
  withStatement e [(0, .int (int64 stpGuid))] (fun _ => queryRow e)

/-- `insert into stp_status(stp_guid, stp_key, expires, stp_group, idx,
    insert_time, stp_desc) values(?,?,?,?,?,now(),?);`. -/
def insertStatement : InsertStatement where
  columns := [.stpGuid, .stpKey, .expires, .stpGroup, .idx, .insertTime, .stpDesc]
  values := [.param, .param, .param, .param, .param, .now, .param]

/-- `ExecuteUpdate`, which answers `-1` for a failure. -/
def updateRow (e : DbEnv) (params : Nat → Value) : Act DbEvent Bool := do
  Act.emit [.update (insertStatement.row params)]
  call .stmt e.execute

/-- The setters of `InsertCryptoStatus`, in order. -/
def statusSetters (st : CryptoStatus) : List (Nat × Value) :=
  [(0, .int (int64 st.stpGuid)),
    -- `key.c_str()` ends at the first zero byte
    (1, .text (st.key.takeWhile (· ≠ 0))),
    (2, .int st.group),
    (3, .int st.idx),
    (4, .int st.expires),
    (5, .text "密钥协商".toUTF8.toList)]

/-- `bool StpDao::InsertCryptoStatus(uint64_t, int32_t, int32_t, int64_t,
    const std::string&)`. -/
def insertCryptoStatus (e : DbEnv) (st : CryptoStatus) : Act DbEvent Bool :=
  withStatement e (statusSetters st) (updateRow e)

/-- A call of one of the two functions, with how the library answers. -/
inductive DaoCall where
  | check (env : DbEnv) (stpGuid : UInt64)
  | insert (env : DbEnv) (st : CryptoStatus)

/-- Either function, with its arguments. -/
def DaoCall.run : DaoCall → Act DbEvent Bool
  | .check env stpGuid => checkStpGuidValid env stpGuid
  | .insert env st => insertCryptoStatus env st

/-! ## Connections, statements and result sets -/

/-- Inserting a row is no operation on a resource. -/
def DbEvent.resource? : DbEvent → Option (Op Kind)
  | .resource op => some op
  | .update _ => none

/-- What a log says about the library's objects. -/
def ops (log : List DbEvent) : List (Op Kind) := log.filterMap DbEvent.resource?

@[simp] theorem ops_nil : ops [] = [] := rfl

@[simp] theorem ops_resource (op : Op Kind) (log : List DbEvent) :
    ops (.resource op :: log) = op :: ops log := rfl

@[simp] theorem ops_update (row : Row) (log : List DbEvent) :
    ops (.update row :: log) = ops log := rfl

@[simp] theorem ops_append (log log' : List DbEvent) :
    ops (log ++ log') = ops log ++ ops log' :=
  List.filterMap_append

/-- What a call does to connections, statements and result sets. -/
def DaoCall.ops (c : DaoCall) : List (Op Kind) := StpDao.ops c.run.log

/-- After each of the calls everything taken has been given back, once. -/
def NoLeak (cs : List DaoCall) : Prop :=
  ∀ n, Settled (sequenceFrom 0 ((cs.take n).map DaoCall.ops))

/-- A call throws between taking the connection and giving it back, the setters
    being those of the parameters below `params`. -/
def DbEnv.ThrowsHolding (e : DbEnv) (params : Nat) (query : Bool) : Prop :=
  e.getConnection = .ok ∧ (e.prepareStatement = .threw
    ∨ (e.prepareStatement = .ok ∧ ((∃ n, n < params ∧ e.set n = .threw)
      ∨ e.execute = .threw
      ∨ (query = true ∧ e.execute = .ok ∧ e.next = .threw))))

/-- It ends by an exception after it got its connection. -/
def DaoCall.ThrowsHolding : DaoCall → Prop
  | .check e _ => e.ThrowsHolding 1 true
  | .insert e _ => e.ThrowsHolding 6 false

/-- A log that takes and gives back nothing but result sets. -/
def OnlyResults (log : List DbEvent) : Prop :=
  ∀ op ∈ ops log, op = .use .stmt ∨ op.resource = .result

/-- Nothing but results and uses of the statement is in such a log. -/
theorem OnlyResults.unheld {log : List DbEvent} (h : OnlyResults log)
    {op : Op Kind} (hop : op ≠ .use .stmt) (hres : op.resource ≠ .result) :
    (ops log).count op = 0 := by
  refine List.count_eq_zero.mpr (fun hmem => ?_)
  rcases h op hmem with h' | h'
  · exact hop h'
  · exact hres h'

@[simp] theorem call_ok (k : Kind) :
    call k .ok = ⟨[.resource (.use k)], some true⟩ := rfl

@[simp] theorem call_null (k : Kind) :
    call k .null = ⟨[.resource (.use k)], some false⟩ := rfl

@[simp] theorem call_threw (k : Kind) :
    call k .threw = ⟨[.resource (.use k)], none⟩ := rfl

@[simp] theorem fetch_ok (k : Kind) :
    fetch k .ok = ⟨[.resource (.acquire k)], some true⟩ := rfl

@[simp] theorem fetch_null (k : Kind) : fetch k .null = ⟨[], some false⟩ := rfl

@[simp] theorem fetch_threw (k : Kind) : fetch k .threw = ⟨[], none⟩ := rfl

/-- The setters touch nothing but the statement, and throw if one of them does. -/
theorem setParams_spec (set : Nat → Outcome) (setters : List (Nat × Value)) :
    ∀ params, (∀ op ∈ ops (setParams set setters params).log, op = .use .stmt)
      ∧ ((setParams set setters params).val = none
        ↔ ∃ p ∈ setters, set p.1 = .threw) := by
  induction setters with
  | nil =>
      intro params
      refine ⟨fun op hop => absurd hop List.not_mem_nil, ?_⟩
      simp [setParams]
  | cons p rest ih =>
      obtain ⟨n, v⟩ := p
      intro params
      rw [setParams, List.exists_mem_cons_iff]
      cases hn : set n with
      | threw =>
          rw [call_threw, Act.none_bind]
          simp
      | null =>
          obtain ⟨huse, hval⟩ := ih params
          rw [call_null, Act.some_bind]
          simp only [Bool.false_eq_true, if_false, List.cons_append,
            List.nil_append, ops_resource, List.forall_mem_cons, hval]
          exact ⟨⟨trivial, huse⟩, by simp⟩
      | ok =>
          obtain ⟨huse, hval⟩ := ih (Function.update params n v)
          rw [call_ok, Act.some_bind]
          simp only [if_true, List.cons_append, List.nil_append, ops_resource,
            List.forall_mem_cons, hval]
          exact ⟨⟨trivial, huse⟩, by simp⟩

/-- What has been taken when the setters begin. -/
def held : List (Op Kind) := [.acquire .conn, .use .conn, .acquire .stmt]

/-- A connection that was taken and is not given back is missing. -/
theorem not_settled_held {log : List DbEvent} (h : .release .conn ∉ ops log) :
    ¬ Settled (held ++ ops log) := by
  refine not_settled_of_kept (r := .conn) List.mem_cons_self ?_
  rw [List.mem_append]
  rintro (hmem | hmem)
  · exact absurd hmem (by decide)
  · exact h hmem

/-- The two objects that are taken first are given back last. -/
theorem settled_given_back {log log' : List DbEvent}
    (huse : ∀ op ∈ ops log, op = .use .stmt) (honly : OnlyResults log')
    (hres : Settled (ops log')) :
    Settled (held ++ (ops log ++ (ops log' ++ [.release .stmt, .release .conn]))) := by
  intro r
  have hset : ∀ op, op ≠ .use .stmt → (ops log).count op = 0 :=
    fun op hop => List.count_eq_zero.mpr (fun h => hop (huse op h))
  rw [List.count_append, List.count_append, List.count_append, List.count_append,
    List.count_append, List.count_append, hset (.release r) (fun h => nomatch h),
    hset (.acquire r) (fun h => nomatch h)]
  cases r with
  | conn =>
      rw [honly.unheld (by decide) (by decide), honly.unheld (by decide) (by decide)]
      decide
  | stmt =>
      rw [honly.unheld (by decide) (by decide), honly.unheld (by decide) (by decide)]
      decide
  | result =>
      have hr := hres .result
      have hheld : held.count (.acquire .result) = 0 ∧ held.count (.release .result) = 0 := by
        decide
      have hend : [Op.release Kind.stmt, .release .conn].count (.acquire .result) = 0
          ∧ [Op.release Kind.stmt, .release .conn].count (.release .result) = 0 := by
        decide
      omega

section Frame

variable {execute : (Nat → Value) → Act DbEvent Bool} {throws : Prop}

/-- From the setters on: everything comes back if nothing throws. -/
theorem settled_held_iff {set : Nat → Outcome} {setters : List (Nat × Value)}
    (honly : ∀ params, OnlyResults (execute params).log)
    (hthrow : ∀ params, (execute params).val = none ↔ throws)
    (hback : ¬ throws → ∀ params, Settled (ops (execute params).log)) :
    Settled (held ++ ops (do
        let params ← setParams set setters (fun _ => .null)
        let res ← execute params
        release .stmt
        release .conn
        pure res : Act DbEvent Bool).log)
      ↔ ¬ ((∃ p ∈ setters, set p.1 = .threw) ∨ throws) := by
  obtain ⟨huse, hval⟩ := setParams_spec set setters (fun _ => .null)
  cases hs : setParams set setters (fun _ => .null) with
  | mk log val =>
      rw [hs] at huse hval
      have hconn : .release .conn ∉ ops log := fun h => nomatch huse _ h
      cases val with
      | none =>
          -- a setter throws
          refine iff_of_false ?_ (fun h => h (Or.inl (hval.mp rfl)))
          rw [Act.none_bind]
          exact not_settled_held hconn
      | some params =>
          have hquiet : ¬ ∃ p ∈ setters, set p.1 = .threw :=
            fun h => nomatch hval.mpr h
          have hexec := honly params
          have hthrow := hthrow params
          rw [Act.some_bind]
          cases hx : execute params with
          | mk log' val' =>
              rw [hx] at hexec hthrow
              cases val' with
              | none =>
                  -- the execution throws
                  refine iff_of_false ?_ (fun h => h (Or.inr (hthrow.mp rfl)))
                  rw [Act.none_bind]
                  refine not_settled_held ?_
                  rw [ops_append, List.mem_append]
                  rintro (h | h)
                  · exact hconn h
                  · exact absurd (hexec _ h) (by decide)
              | some res =>
                  have hfine : ¬ throws := fun h => nomatch hthrow.mpr h
                  have hres := hback hfine params
                  rw [hx] at hres
                  refine iff_of_true ?_ (fun h => h.elim hquiet hfine)
                  rw [Act.some_bind, ops_append, ops_append]
                  exact settled_given_back huse hexec hres

/-- **THE FRAME OF BOTH FUNCTIONS**: what they took comes back unless a call
    throws in between. -/
theorem settled_withStatement_iff {e : DbEnv} {setters : List (Nat × Value)}
    (honly : ∀ params, OnlyResults (execute params).log)
    (hthrow : ∀ params, (execute params).val = none ↔ throws)
    (hback : ¬ throws → ∀ params, Settled (ops (execute params).log)) :
    Settled (ops (withStatement e setters execute).log)
      ↔ ¬ (e.getConnection = .ok ∧ (e.prepareStatement = .threw
        ∨ (e.prepareStatement = .ok
          ∧ ((∃ p ∈ setters, e.set p.1 = .threw) ∨ throws)))) := by
  cases hc : e.getConnection with
  | null => simp [withStatement, hc, Act.catching, settled_nil]
  | threw => simp [withStatement, hc, Act.catching, settled_nil]
  | ok =>
      cases hp : e.prepareStatement with
      | null =>
          -- the connection is released at once
          refine iff_of_true ?_ (by rintro ⟨-, h | ⟨h, -⟩⟩ <;> cases h)
          simp only [withStatement, hc, hp]
          show Settled [.acquire Kind.conn, .use .conn, .release .conn]
          intro r
          cases r <;> decide
      | threw =>
          refine iff_of_false ?_ (fun h => h ⟨rfl, Or.inl rfl⟩)
          simp only [withStatement, hc, hp]
          show ¬ Settled [.acquire Kind.conn, .use .conn]
          exact not_settled_of_kept (r := .conn) (by decide) (by decide)
      | ok =>
          have hlog : ops (withStatement e setters execute).log
              = held ++ ops (do
                  let params ← setParams e.set setters (fun _ => .null)
                  let res ← execute params
                  release .stmt
                  release .conn
                  pure res : Act DbEvent Bool).log := by
            simp only [withStatement, hc, hp]
            rfl
          rw [hlog, settled_held_iff honly hthrow hback]
          simp

end Frame

/-! ## Leaks -/

/-- The parameters are bound in the order of their numbers. -/
theorem exists_setter_iff {setters : List (Nat × Value)} {k : Nat}
    (h : setters.map Prod.fst = List.range k) (set : Nat → Outcome) :
    (∃ p ∈ setters, set p.1 = .threw) ↔ ∃ n, n < k ∧ set n = .threw := by
  constructor
  · rintro ⟨p, hp, hthrew⟩
    refine ⟨p.1, List.mem_range.mp ?_, hthrew⟩
    rw [← h]
    exact List.mem_map_of_mem hp
  · rintro ⟨n, hn, hthrew⟩
    have hmem : n ∈ setters.map Prod.fst := by
      rw [h]
      exact List.mem_range.mpr hn
    -- the number is that of one of the setters
    obtain ⟨p, hp, hpn⟩ := List.mem_map.mp hmem
    exact ⟨p, hp, by rw [hpn]; exact hthrew⟩

/-- The result set of a query comes back unless `Next` throws. -/
theorem settled_queryRow {e : DbEnv}
    (h : ¬ (e.execute = .threw ∨ (e.execute = .ok ∧ e.next = .threw))) :
    Settled (ops (queryRow e).log) := by
  cases hx : e.execute with
  | threw => exact absurd (Or.inl hx) h
  | null =>
      rw [show ops (queryRow e).log = [.use .stmt] by
        simp [queryRow, hx, Act.emit]]
      intro r
      cases r <;> decide
  | ok =>
      have hn : e.next ≠ .threw := fun hn => h (Or.inr ⟨hx, hn⟩)
      rw [show ops (queryRow e).log
          = [.use .stmt, .acquire .result, .use .result, .release .result] by
        cases hn' : e.next with
        | threw => exact absurd hn' hn
        | ok => simp [queryRow, hx, hn', Act.emit, release]
        | null => simp [queryRow, hx, hn', Act.emit, release]]
      intro r
      cases r <;> decide

/-- **`CheckStpGuidValid` LEAKS** exactly if it throws while it holds them. -/
theorem settled_check_iff (e : DbEnv) (stpGuid : UInt64) :
    Settled (ops (checkStpGuidValid e stpGuid).log) ↔ ¬ e.ThrowsHolding 1 true := by
  -- between its connection and the end the query only makes a result set
  have honly : OnlyResults (queryRow e).log := by
    cases hx : e.execute <;> cases hn : e.next <;>
      simp [OnlyResults, queryRow, hx, hn, Act.emit, release, Op.resource]
  have hthrow : (queryRow e).val = none
      ↔ e.execute = .threw ∨ (e.execute = .ok ∧ e.next = .threw) := by
    cases hx : e.execute <;> cases hn : e.next <;>
      simp [queryRow, hx, hn, Act.emit, release]
  rw [checkStpGuidValid, settled_withStatement_iff (fun _ => honly)
    (fun _ => hthrow) (fun h _ => settled_queryRow h), exists_setter_iff (k := 1) rfl,
    DbEnv.ThrowsHolding]
  simp only [true_and]

/-- **`InsertCryptoStatus` LEAKS** under the same condition, with six parameters to
    set. -/
theorem settled_insert_iff (e : DbEnv) (st : CryptoStatus) :
    Settled (ops (insertCryptoStatus e st).log) ↔ ¬ e.ThrowsHolding 6 false := by
  -- the update makes nothing
  have hops : ∀ params, ops (updateRow e params).log = [.use .stmt] := by
    intro params
    cases hx : e.execute <;> simp [updateRow, hx, Act.emit]
  have hthrow : ∀ params, (updateRow e params).val = none ↔ e.execute = .threw := by
    intro params
    cases hx : e.execute <;> simp [updateRow, hx, Act.emit]
  have honly : ∀ params, OnlyResults (updateRow e params).log := by
    intro params op hop
    rw [hops params] at hop
    exact Or.inl (List.mem_singleton.mp hop)
  have hback : ∀ params, Settled (ops (updateRow e params).log) := by
    intro params r
    rw [hops params]
    cases r <;> decide
  rw [insertCryptoStatus, settled_withStatement_iff honly hthrow
    (fun _ => hback), exists_setter_iff (k := 6) rfl, DbEnv.ThrowsHolding]
  simp only [Bool.false_eq_true, false_and, or_false]

theorem DaoCall.settled_iff (c : DaoCall) : Settled c.ops ↔ ¬ c.ThrowsHolding := by
  cases c with
  | check e stpGuid => exact settled_check_iff e stpGuid
  | insert e st => exact settled_insert_iff e st

/-- **DATABASE RESOURCES**: nothing leaks over a sequence of calls exactly if no
    call into the library throws while a connection is held. -/
theorem no_leak_iff (cs : List DaoCall) :
    NoLeak cs ↔ ∀ c ∈ cs, ¬ c.ThrowsHolding := by
  -- the calls have resources of their own, so that each settles by itself
  have hupto : ∀ n, Settled (sequenceFrom 0 ((cs.take n).map DaoCall.ops))
      ↔ ∀ c ∈ cs.take n, ¬ c.ThrowsHolding := by
    intro n
    rw [settled_sequence_iff, List.forall_mem_map]
    exact forall₂_congr (fun c _ => c.settled_iff)
  constructor
  · intro h c hc
    exact (hupto cs.length).mp (h cs.length) c (by rw [List.take_length]; exact hc)
  · intro h n
    exact (hupto n).mpr (fun c hc => h c (List.mem_of_mem_take hc))

/-- The library answers every call well, but `execute` throws. -/
def throwingEnv : DbEnv where
  getConnection := .ok
  prepareStatement := .ok
  set := fun _ => .ok
  execute := .threw
  next := .ok

/-- **A QUERY THAT THROWS KEEPS THE CONNECTION**, the only one of the pool. -/
theorem throwing_query_leaks : ¬ NoLeak [.check throwingEnv 1] := by
  intro h
  have hone := h 1
  exact absurd (hone (0, .conn)).1 (by decide)

/-! ## The row that is inserted -/

/-- `ExecuteUpdate` is called with this row. -/
def Inserts (x : Act DbEvent Bool) (row : Row) : Prop := .update row ∈ x.log

/-- The parameters as setters that succeed leave them. -/
def bound (setters : List (Nat × Value)) (params : Nat → Value) : Nat → Value :=
  setters.foldl (fun ps p => Function.update ps p.1 p.2) params

/-- Setters that succeed bind all parameters, and insert nothing yet. -/
theorem setParams_ok {set : Nat → Outcome} (hset : ∀ n, set n = .ok)
    (setters : List (Nat × Value)) :
    ∀ params, (∀ row, .update row ∉ (setParams set setters params).log)
      ∧ (setParams set setters params).val = some (bound setters params) := by
  induction setters with
  | nil => exact fun _ => ⟨fun _ => List.not_mem_nil, rfl⟩
  | cons p rest ih =>
      obtain ⟨n, v⟩ := p
      intro params
      obtain ⟨hrows, hval⟩ := ih (Function.update params n v)
      rw [setParams, hset n, call_ok, Act.some_bind]
      refine ⟨?_, hval⟩
      intro row hrow
      rcases List.mem_cons.mp hrow with h | h
      · cases h
      · exact hrows row h

/-- No row is inserted by a call that answers a pointer. -/
theorem update_notMem_fetch (k : Kind) (o : Outcome) (row : Row) :
    .update row ∉ (fetch k o).log := by
  cases o <;> simp

/-- A row is inserted by the statement, with the parameters as they were set. -/
theorem inserts_withStatement {e : DbEnv} (hset : ∀ n, e.set n = .ok)
    {setters : List (Nat × Value)} {execute : (Nat → Value) → Act DbEvent Bool}
    {row : Row} (h : Inserts (withStatement e setters execute) row) :
    Inserts (execute (bound setters (fun _ => .null))) row := by
  obtain ⟨hrows, hval⟩ := setParams_ok hset setters (fun _ => .null)
  rcases Act.mem_bind_log.mp h with h | ⟨conn, -, h⟩
  · exact absurd h (update_notMem_fetch _ _ row)
  cases conn with
  | false => exact absurd h List.not_mem_nil
  | true =>
      rcases Act.mem_bind_log.mp h with h | ⟨-, -, h⟩
      · cases List.mem_singleton.mp h
      rcases Act.mem_bind_log.mp h with h | ⟨stmt, -, h⟩
      · exact absurd h (update_notMem_fetch _ _ row)
      cases stmt with
      | false =>
          rcases List.mem_cons.mp h with h | h
          · cases h
          · exact absurd h List.not_mem_nil
      | true =>
          rcases Act.mem_bind_log.mp h with h | ⟨params, hparams, h⟩
          · exact absurd h (hrows row)
          rw [hval] at hparams
          cases hparams
          rcases Act.mem_bind_log.mp h with h | ⟨res, -, h⟩
          · exact h
          · -- behind the execution only the two releases follow
            rcases List.mem_cons.mp h with h | h
            · cases h
            · cases List.mem_singleton.mp h

/-- The row is the token, the guid as the `int64_t` it is bound as. -/
structure RowMatches (row : Row) (token : StpToken) : Prop where
  stpGuid : row .stpGuid = some (.int (int64 token.stpGuid))
  stpKey : row .stpKey = some (.text token.key)
  expires : row .expires = some (.int token.expires)
  stpGroup : row .stpGroup = some (.int token.group)
  idx : row .idx = some (.int token.idx)

/-- The row as the functions write it: parameter `2` is the group and the third
    column is `expires`, and so on in turn. -/
theorem insert_row {e : DbEnv} {st : CryptoStatus} {row : Row}
    (hset : ∀ n, e.set n = .ok) (h : Inserts (insertCryptoStatus e st) row) :
    row .stpGuid = some (.int (int64 st.stpGuid))
      ∧ row .stpKey = some (.text (st.key.takeWhile (· ≠ 0)))
      ∧ row .expires = some (.int st.group)
      ∧ row .stpGroup = some (.int st.idx)
      ∧ row .idx = some (.int st.expires) := by
  rcases List.mem_cons.mp (inserts_withStatement hset h) with h | h
  · cases h
    exact ⟨rfl, rfl, rfl, rfl, rfl⟩
  · cases hx : e.execute <;> rw [hx] at h <;> cases List.mem_singleton.mp h

/-- Whatever is granted is recorded as the row, or it is not recorded. -/
def StatusPersisted (cfg : Config) : Prop :=
  ∀ env valid w req ans w' st e row, Reachable cfg w →
    handleProtocolStpCryptoNegotiate cfg env valid w req = .ok (ans, w') →
    ans.status = some st → (∀ n, e.set n = .ok) →
    Inserts (insertCryptoStatus e st) row → RowMatches row ans.rsp.token

/-- A drawn key has no zero byte. -/
theorem takeWhile_keyText (random : Nat → Nat) :
    (keyText random).takeWhile (· ≠ 0) = keyText random := by
  refine List.takeWhile_eq_self_iff.mpr ?_
  intro c hc
  obtain ⟨i, -, hi⟩ := List.mem_map.mp hc
  rw [← hi]
  simpa using keyTab_ne_zero _ (keyChar_mem (random i))

/-- **THE ROW IS THE TOKEN** only if group, index and expiry are one number. -/
theorem status_row_iff {cfg : Config} {env : CallEnv} {valid : Bool}
    {w w' : World} {req : C2SStpCryptoNegotiate} {ans : Answer}
    {st : CryptoStatus} {e : DbEnv} {row : Row} (hw : Reachable cfg w)
    (hcall : handleProtocolStpCryptoNegotiate cfg env valid w req = .ok (ans, w'))
    (hst : ans.status = some st) (hset : ∀ n, e.set n = .ok)
    (hrow : Inserts (insertCryptoStatus e st) row) :
    RowMatches row ans.rsp.token
      ↔ req.token.group = req.token.idx
        ∧ req.token.idx = env.now + cfg.tokenExpires := by
  obtain ⟨hguid, hkey, hexpires, hgroup, hidx⟩ := insert_row hset hrow
  cases handler_effect hcall with
  | invalid _ => cases hst
  | failed _ _ _ _ _ _ => cases hst
  | granted stpGuid out _ _ _ hneg =>
      have hout := negotiate_out hw hneg
      subst hout
      cases hst
      -- the three numbers of the token, and where the row has them
      have hexp : row .expires = some (.int req.token.group) := hexpires
      have hgrp : row .stpGroup = some (.int req.token.idx) := hgroup
      have hix : row .idx = some (.int (env.now + cfg.tokenExpires)) := hidx
      constructor
      · intro hmatch
        have h₁ := hgrp.symm.trans hmatch.stpGroup
        have h₂ := hix.symm.trans hmatch.idx
        refine ⟨?_, ?_⟩
        · injection h₁ with h₁
          injection h₁ with h₁
          exact h₁.symm
        · injection h₂ with h₂
          injection h₂ with h₂
          exact h₂.symm
      · rintro ⟨hgi, hie⟩
        refine ⟨hguid, ?_, ?_, ?_, ?_⟩
        · rw [hkey]
          exact congrArg (fun s => some (Value.text s))
            (takeWhile_keyText (env.random env.seed))
        · rw [hexp, hgi, hie]
          rfl
        · rw [hgrp, ← hgi]
          rfl
        · rw [hix, ← hie]
          rfl

/-- The library answers every call well. -/
def quietEnv : DbEnv := { throwingEnv with execute := .ok }

/-- A request without a token, its reply and what the handler records. -/
def plainRequest : C2SStpCryptoNegotiate := { stpGuid? := some 1, token? := none }

/-- The grant of slot `(0, 0)` of the fresh store. -/
def plainAnswer : Answer :=
  .grant 1 (grantedArgs oneSlot quietCall (requestArgs plainRequest))

/-- What the handler passes on for it. -/
def plainStatus : CryptoStatus where
  stpGuid := 1
  group := 0
  idx := 0
  expires := 1060
  key := keyText (quietCall.random 7)

/-- The row that is inserted for it. -/
def plainRow : Row :=
  insertStatement.row (bound (statusSetters plainStatus) (fun _ => .null))

/-- The handler answers it. -/
theorem plainRequest_handled :
    ∃ w', handleProtocolStpCryptoNegotiate oneSlot quietCall true freshWorld
      plainRequest = .ok (plainAnswer, w') :=
  ⟨_, handler_of_grant rfl rfl (freshWorld_grants quietCall (Int.le_refl 0) rfl)⟩

/-- And the row goes in with its columns turned. -/
theorem inserts_plainRow :
    Inserts (insertCryptoStatus quietEnv plainStatus) plainRow :=
  -- behind the two acquisitions and the six setters
  List.mem_of_getElem? (i := 9) rfl

/-- It would be right only at a time that is not now. -/
theorem status_row_iff_oneSlot :
    RowMatches plainRow plainAnswer.rsp.token
      ↔ plainRequest.token.group = plainRequest.token.idx
        ∧ plainRequest.token.idx = quietCall.now + oneSlot.tokenExpires := by
  obtain ⟨w', hcall⟩ := plainRequest_handled
  exact status_row_iff ready_freshWorld.1 hcall
    (show _ = some plainStatus from rfl) (fun _ => rfl) inserts_plainRow

/-- **THE FIRST GRANT OF A PROCESS IS RECORDED WITH ITS NUMBERS TURNED ROUND**:
    it expires at `0` and has index `1060`. -/
theorem status_row_turned : ¬ StatusPersisted oneSlot := by
  intro hpersisted
  obtain ⟨w', hcall⟩ := plainRequest_handled
  have hmatch := hpersisted quietCall true freshWorld plainRequest plainAnswer w'
    plainStatus quietEnv plainRow ready_freshWorld.1 hcall rfl (fun _ => rfl)
    inserts_plainRow
  exact absurd hmatch.expires (by decide)

end StpDao
