/-
  ManagementUnit.Proofs.Mailbox.Course
  ────────────────────────────────
  The course of a transaction: which accesses it makes, in which order, and how
  each way of ending shows in its result.

  A transaction that nothing gets in the way of makes these accesses:

      poll · response ← 0 · argument i ← word i (six of them) · command ← opcode
           · poll · argument i (six of them, read back)

  where a poll reads the response register up to the first value that is not
  zero.  `Due` lists the points before the end of the second poll, with the
  operation that comes next there; `Course` says what can happen at them.
  Everything that is proved about transactions on some hardware starts from
  here, and not from the program.

  Main results:
    * `conducts_execute` — a transaction keeps to a course, and reads the
      response register at most as often as its budget says.
    * `execute_course`   — the same for a run on any platform, and for a mailbox
      that the processor does not have.
-/
import ManagementUnit.Mailbox.Transaction
import ManagementUnit.Proofs.Mailbox.Registers
import ManagementUnit.Proofs.Network.Traffic

namespace ManagementUnit

open Program (note Conducts conducts_pure conducts_read conducts_write)

/-! ## §1. Operations and their accesses. -/

/-- One word to be read or written. -/
inductive Operation where
  | read (address : UInt32)
  | write (address value : UInt32)

/-- The register that an operation is about. -/
def Operation.address : Operation → UInt32
  | read a | write a _ => a

/-- The access that an operation makes if it faults. -/
def Operation.failed (f : NetworkFault) : Operation → Access
  | read a => .read a (.error f)
  | write a v => .write a v (.error f)

namespace Access

/-- The access that stores a word. -/
def stored (s : UInt32 × UInt32) : Access := write s.1 s.2 (.ok ())

/-- Whether an access is a read of a given register, be it one that faulted. -/
def isReadOf (address : UInt32) : Access → Bool
  | read a _ => a == address
  | write .. => false

end Access

/-- How often the accesses `as` read a given register. -/
def readCount (address : UInt32) (as : List Access) : Nat := as.countP (Access.isReadOf address)

/-- The words of an answer: what was read back, and the word that was sent where
reading back faulted. -/
def Arguments.received (sent : Arguments) (outcomes : Fin wordCount → Except NetworkFault UInt32) :
    Arguments :=
  Arguments.ofFn fun i => (outcomes i).toOption.getD (sent.get i)

namespace RegisterBlock

/-- Reads of the response register that all give zero. -/
def zeroReads (b : RegisterBlock) (n : Nat) : List Access :=
  List.replicate n (.read b.response (.ok 0))

/-- Reads of the response register up to the value `v`. -/
def poll (b : RegisterBlock) (n : Nat) (v : UInt32) : List Access :=
  b.zeroReads n ++ [.read b.response (.ok v)]

/-- What a request stores, and where, in order. -/
def request (b : RegisterBlock) (opcode : UInt32) (sent : Arguments) : List (UInt32 × UInt32) :=
  (b.response, 0) :: Arguments.positions.map (fun i => (b.argument i.val, sent.get i))
    ++ [(b.command, opcode)]

/-- What it stores before the opcode. -/
def front (b : RegisterBlock) (sent : Arguments) : List (UInt32 × UInt32) :=
  (b.response, 0) :: Arguments.positions.map fun i => (b.argument i.val, sent.get i)

/-- The opcode comes last. -/
theorem request_eq (b : RegisterBlock) (opcode : UInt32) (sent : Arguments) :
    b.request opcode sent = b.front sent ++ [(b.command, opcode)] := rfl

/-- So it is stored last, behind whatever was done before. -/
theorem stored_request (b : RegisterBlock) (opcode : UInt32) (sent : Arguments)
    (before rest : List Access) :
    before ++ (b.request opcode sent).map Access.stored ++ rest =
      before ++ (b.front sent).map Access.stored ++ .write b.command opcode (.ok ()) :: rest := by
  rw [request_eq, List.map_append, ← List.append_assoc, List.append_assoc _ _ rest]
  rfl

/-- The reads of the six argument registers, in order. -/
def readBack (b : RegisterBlock) (outcomes : Fin wordCount → Except NetworkFault UInt32) :
    List Access :=
  Arguments.positions.map fun i => .read (b.argument i.val) (outcomes i)

variable {b : RegisterBlock}

/-- A request goes to all registers, in this order. -/
theorem map_fst_request (b : RegisterBlock) (opcode : UInt32) (sent : Arguments) :
    (b.request opcode sent).map Prod.fst =
      (b.response :: b.argumentRegisters) ++ [b.command] := by
  simp [request, argumentRegisters, Function.comp_def]

theorem mem_registers_of_request {opcode : UInt32} {sent : Arguments} {p : UInt32 × UInt32}
    (h : p ∈ b.request opcode sent) : p.1 ∈ b.registers := by
  have hfst : p.1 ∈ (b.request opcode sent).map Prod.fst := List.mem_map_of_mem h
  rw [map_fst_request] at hfst
  exact (List.perm_append_singleton _ _).mem_iff.1 hfst

/-- Only the last word of a request goes to the command register. -/
theorem command_not_mem_of_split (hnodup : b.registers.Nodup) {opcode : UInt32}
    {sent : Arguments} {p : UInt32 × UInt32} {before after : List (UInt32 × UInt32)}
    (hsplit : b.request opcode sent = before ++ p :: after) :
    b.command ∉ before.map Prod.fst := by
  have hfst := b.map_fst_request opcode sent
  -- `p` comes after `before`, so `before` stops short of the last word
  have hmem : ∀ a ∈ before.map Prod.fst, a ∈ b.response :: b.argumentRegisters := by
    intro a ha
    rw [hsplit, List.map_append, List.map_cons, List.append_eq_append_iff] at hfst
    rcases hfst with ⟨c, hc, -⟩ | ⟨c, hc, hc'⟩
    · rw [hc]
      exact List.mem_append_left _ ha
    · cases c with
      | nil =>
        rw [List.append_nil] at hc
        exact hc ▸ ha
      | cons _ c =>
        have := congrArg List.length hc'
        simp at this
  exact fun h => (List.nodup_cons.1 hnodup).1 (hmem _ h)

/-- The words before another word of a request go to registers other than the
command register. -/
theorem plain_of_split (hnodup : b.registers.Nodup) {opcode : UInt32} {sent : Arguments}
    {p : UInt32 × UInt32} {before after : List (UInt32 × UInt32)}
    (hsplit : b.request opcode sent = before ++ p :: after) :
    ∀ q ∈ before, q.1 ∈ b.registers ∧ q.1 ≠ b.command := by
  intro q hq
  refine ⟨mem_registers_of_request (hsplit ▸ List.mem_append_left _ hq), fun heq => ?_⟩
  exact command_not_mem_of_split hnodup hsplit (heq ▸ List.mem_map_of_mem hq)

/-- A word of a request is the first one and goes to the response register, or it
goes elsewhere and the response register is at zero by then. -/
theorem response_of_split (hnodup : b.registers.Nodup) {opcode : UInt32} {sent : Arguments}
    {p : UInt32 × UInt32} {before after : List (UInt32 × UInt32)}
    (hsplit : b.request opcode sent = before ++ p :: after) :
    p.1 = b.response ∧ before = [] ∨
      p.1 ≠ b.response ∧ ∀ registers, storeAll registers before b.response = 0 := by
  cases before with
  | nil =>
    have hp := congrArg (List.map Prod.fst) hsplit
    rw [map_fst_request] at hp
    exact .inl ⟨(List.cons_eq_cons.1 hp).1.symm, rfl⟩
  | cons q rest =>
    have hq : (b.response, 0) = q := (List.cons_eq_cons.1 hsplit).1
    -- the first word clears the response register, and no register comes twice
    have hresponse : b.response ∉ rest.map Prod.fst ++ p.1 :: after.map Prod.fst := by
      have hfst := b.map_fst_request opcode sent
      rw [hsplit, List.cons_append, List.map_cons, ← hq] at hfst
      have hperm := (List.perm_append_singleton b.command (b.response :: b.argumentRegisters)).symm
      have hall := hperm.nodup hnodup
      rw [← hfst, List.nodup_cons] at hall
      simpa using hall.1
    rw [List.mem_append, not_or, List.mem_cons, not_or] at hresponse
    refine .inr ⟨fun heq => hresponse.2.1 heq.symm, fun registers => ?_⟩
    rw [← hq]
    show storeAll (Function.update registers b.response 0) rest b.response = 0
    rw [storeAll_of_not_mem hresponse.1, Function.update_self]

/-- Polling does not read an argument register. -/
theorem read_not_mem_zeroReads (hnodup : b.registers.Nodup) (i : Fin wordCount)
    (o : Except NetworkFault UInt32) (n : Nat) : .read (b.argument i.val) o ∉ b.zeroReads n := by
  intro hmem
  have heq := (List.mem_replicate.1 hmem).2
  exact response_ne_argument hnodup i (Access.read.inj heq).1.symm

theorem read_not_mem_poll (hnodup : b.registers.Nodup) (i : Fin wordCount)
    (o : Except NetworkFault UInt32) (n : Nat) (v : UInt32) :
    .read (b.argument i.val) o ∉ b.poll n v := by
  intro hmem
  rcases List.mem_append.1 hmem with hmem | hmem
  · exact read_not_mem_zeroReads hnodup i o n hmem
  · have heq := List.mem_singleton.1 hmem
    exact response_ne_argument hnodup i (Access.read.inj heq).1.symm

/-- Nor does storing words. -/
theorem read_not_mem_stored (a : UInt32) (o : Except NetworkFault UInt32)
    (ws : List (UInt32 × UInt32)) : .read a o ∉ ws.map Access.stored := by
  intro hmem
  obtain ⟨_, -, heq⟩ := List.mem_map.1 hmem
  cases heq

/-- A read of an argument register is one of the reads that give the answer. -/
theorem mem_readBack_of_read (hnodup : b.registers.Nodup) {opcode : UInt32} {sent : Arguments}
    {n k : Nat} {v raw : UInt32} {o : Except NetworkFault UInt32}
    {outcomes : Fin wordCount → Except NetworkFault UInt32} {i : Fin wordCount}
    (h : .read (b.argument i.val) o ∈
      b.poll n v ++ (b.request opcode sent).map Access.stored ++ b.poll k raw ++
        b.readBack outcomes) :
    .read (b.argument i.val) o ∈ b.readBack outcomes ∧ outcomes i = o := by
  simp only [List.mem_append, or_assoc] at h
  rcases h with h | h | h | h
  · exact absurd h (read_not_mem_poll hnodup i o n v)
  · exact absurd h (read_not_mem_stored _ o _)
  · exact absurd h (read_not_mem_poll hnodup i o k raw)
  · refine ⟨h, ?_⟩
    obtain ⟨j, -, heq⟩ := List.mem_map.1 h
    obtain ⟨haddress, houtcome⟩ := Access.read.inj heq
    rwa [argument_inj hnodup haddress] at houtcome

end RegisterBlock

/-! ## §2. Courses. -/

/-- `Due b opcode sent done op`: a transaction that has made the accesses `done`,
all of which went through, has yet to finish, and `op` comes next. -/
inductive Due (b : RegisterBlock) (opcode : UInt32) (sent : Arguments) :
    List Access → Operation → Prop where
  /-- Until the response register is not zero, it is read again. -/
  | gate (n : Nat) : Due b opcode sent (b.zeroReads n) (.read b.response)
  /-- Then the words of the request are stored. -/
  | request {n : Nat} {v a w : UInt32} {before after : List (UInt32 × UInt32)} (hv : v ≠ 0)
      (hsplit : b.request opcode sent = before ++ (a, w) :: after) :
      Due b opcode sent (b.poll n v ++ before.map Access.stored) (.write a w)
  /-- Then the response register is read again until it is not zero. -/
  | completion {n : Nat} {v : UInt32} (k : Nat) (hv : v ≠ 0) :
      Due b opcode sent
        (b.poll n v ++ (b.request opcode sent).map Access.stored ++ b.zeroReads k)
        (.read b.response)

/-- `Course b opcode sent budget as result`: a transaction can make the accesses
`as` and end with `result`. -/
inductive Course (b : RegisterBlock) (opcode : UInt32) (sent : Arguments) (budget : Nat) :
    List Access → Except Failure Arguments → Prop where
  /-- A fault ends the transaction. -/
  | faulted {done : List Access} {op : Operation} (f : NetworkFault)
      (hdue : Due b opcode sent done op) :
      Course b opcode sent budget (done ++ [op.failed f]) (.error (.bus f))
  /-- So does a read of the response register that the budget does not cover. -/
  | exhausted {done : List Access} (hdue : Due b opcode sent done (.read b.response))
      (hspent : readCount b.response done = budget) :
      Course b opcode sent budget done (.error .timeout)
  /-- The second poll ends with something other than success. -/
  | rejected {n k : Nat} {v raw : UInt32} (hv : v ≠ 0) (hraw : raw ≠ 0)
      (hfail : raw ≠ ResponseCode.ok) :
      Course b opcode sent budget
        (b.poll n v ++ (b.request opcode sent).map Access.stored ++ b.poll k raw)
        (.error (.rejected (Status.ofRaw raw)))
  /-- It ends with success: the words are read back, and a fault there ends
  nothing. -/
  | answered {n k : Nat} {v : UInt32} (hv : v ≠ 0)
      (outcomes : Fin wordCount → Except NetworkFault UInt32) :
      Course b opcode sent budget
        (b.poll n v ++ (b.request opcode sent).map Access.stored ++ b.poll k ResponseCode.ok
          ++ b.readBack outcomes)
        (.ok (sent.received outcomes))

/-- What comes next is about a register of the mailbox. -/
theorem Due.address_mem {b : RegisterBlock} {opcode : UInt32} {sent : Arguments}
    {done : List Access} {op : Operation} (h : Due b opcode sent done op) :
    op.address ∈ b.registers := by
  cases h with
  | gate | completion => exact List.mem_cons_of_mem _ List.mem_cons_self
  | @request n v a w before after hv hsplit =>
    have hmem : (a, w) ∈ b.request opcode sent := by
      rw [hsplit]
      exact List.mem_append_right _ List.mem_cons_self
    exact RegisterBlock.mem_registers_of_request hmem

/-! ## §3. Where a course writes. -/

section Writes

/-- An element that is not in the second of two lists in a row is in the first. -/
theorem split_left_of_not_mem {α : Type} {as bs before after : List α} {x : α}
    (h : as ++ bs = before ++ x :: after) (hx : x ∉ bs) : ∃ rest, as = before ++ x :: rest := by
  rw [List.append_eq_append_iff] at h
  rcases h with ⟨c, -, hbs⟩ | ⟨c, has, hc⟩
  · exact absurd (hbs ▸ List.mem_append_right c List.mem_cons_self) hx
  · cases c with
    | nil => exact absurd ((List.nil_append bs ▸ hc) ▸ List.mem_cons_self) hx
    | cons y c =>
      obtain ⟨rfl, -⟩ := List.cons_eq_cons.1 hc
      exact ⟨c, has⟩

/-- An element that is not in the first of two lists in a row is in the second. -/
theorem split_right_of_not_mem {α : Type} {as bs before after : List α} {x : α}
    (h : as ++ bs = before ++ x :: after) (hx : x ∉ as) :
    ∃ front, before = as ++ front ∧ bs = front ++ x :: after := by
  rw [List.append_eq_append_iff] at h
  rcases h with ⟨c, hbefore, hbs⟩ | ⟨c, has, hc⟩
  · exact ⟨c, hbefore, hbs⟩
  · cases c with
    | nil =>
      refine ⟨[], ?_, ?_⟩
      · rw [List.append_nil, has, List.append_nil]
      · exact (List.nil_append bs ▸ hc).symm
    | cons y c =>
      obtain ⟨rfl, -⟩ := List.cons_eq_cons.1 hc
      exact absurd (has ▸ List.mem_append_right before List.mem_cons_self) hx

variable {b : RegisterBlock} {opcode : UInt32} {sent : Arguments} {budget : Nat}
  {as before after : List Access} {a w : UInt32} {o : Except NetworkFault Unit}

theorem write_not_mem_zeroReads (n : Nat) : .write a w o ∉ b.zeroReads n := by
  intro h
  cases (List.mem_replicate.1 h).2

theorem write_not_mem_poll (n : Nat) (v : UInt32) : .write a w o ∉ b.poll n v := by
  intro h
  rcases List.mem_append.1 h with h | h
  · exact write_not_mem_zeroReads n h
  · cases List.mem_singleton.1 h

theorem write_not_mem_readBack (outcomes : Fin wordCount → Except NetworkFault UInt32) :
    .write a w o ∉ b.readBack outcomes := by
  intro h
  obtain ⟨i, -, hi⟩ := List.mem_map.1 h
  cases hi

/-- Behind a poll, the words of a request that come before another one do not go to
the command register. -/
theorem command_not_mem_of_stored (hnodup : b.registers.Nodup) {p : UInt32 × UInt32}
    {front rest : List (UInt32 × UInt32)} (hsplit : b.request opcode sent = front ++ p :: rest)
    (n : Nat) (v w : UInt32) :
    .write b.command w (.ok ()) ∉ b.poll n v ++ front.map Access.stored := by
  intro hmem
  rcases List.mem_append.1 hmem with hmem | hmem
  · exact write_not_mem_poll n v hmem
  · obtain ⟨q, hq, heq⟩ := List.mem_map.1 hmem
    exact (RegisterBlock.plain_of_split hnodup hsplit q hq).2 (Access.write.inj heq).1

/-- So the opcode is the only word that goes there, and the last one. -/
theorem exists_front_of_request (hnodup : b.registers.Nodup) (n : Nat) (v : UInt32)
    (opcode : UInt32) (sent : Arguments) (rest : List Access) :
    ∃ front, (∀ w, .write b.command w (.ok ()) ∉ front) ∧
      b.poll n v ++ (b.request opcode sent).map Access.stored ++ rest =
        front ++ .write b.command opcode (.ok ()) :: rest :=
  ⟨b.poll n v ++ (b.front sent).map Access.stored,
    command_not_mem_of_stored hnodup (b.request_eq opcode sent) n v,
    b.stored_request opcode sent _ rest⟩

theorem Due.ofStored {n : Nat} {v : UInt32} {ws rest : List (UInt32 × UInt32)} (hv : v ≠ 0)
    (hws : b.request opcode sent = ws ++ rest)
    (h : b.poll n v ++ ws.map Access.stored = before ++ .write a w o :: after) :
    Due b opcode sent before (.write a w) := by
  obtain ⟨front, rfl, hfront⟩ := split_right_of_not_mem h (write_not_mem_poll n v)
  obtain ⟨ws₁, ws₂, rfl, rfl, hws₂⟩ := List.map_eq_append_iff.1 hfront
  obtain ⟨p, ws₃, rfl, hp, -⟩ := List.map_eq_cons_iff.1 hws₂
  obtain ⟨rfl, rfl, -⟩ := Access.write.inj hp
  have hsplit : b.request opcode sent = ws₁ ++ (p.1, p.2) :: (ws₃ ++ rest) := by
    rw [hws, List.append_assoc, List.cons_append]
  exact .request hv hsplit

theorem Due.ofWrite {done : List Access} {op : Operation} (hdue : Due b opcode sent done op)
    (h : done = before ++ .write a w o :: after) : Due b opcode sent before (.write a w) := by
  cases hdue with
  | gate n =>
    have hmem := List.mem_append_right before (List.mem_cons_self (a := .write a w o) (l := after))
    rw [← h] at hmem
    exact absurd hmem (write_not_mem_zeroReads n)
  | request hv hsplit => exact .ofStored hv hsplit h
  | completion k hv =>
    obtain ⟨rest, h⟩ := split_left_of_not_mem h (write_not_mem_zeroReads k)
    exact .ofStored hv (List.append_nil _).symm h

/-- A write in a course was due there. -/
theorem Course.due_of_write {r : Except Failure Arguments}
    (hcourse : Course b opcode sent budget as r) (h : as = before ++ .write a w o :: after) :
    Due b opcode sent before (.write a w) := by
  cases hcourse with
  | @faulted done op f hdue =>
    rcases List.eq_nil_or_concat after with rfl | ⟨rest, y, rfl⟩
    · obtain ⟨rfl, hlast⟩ := List.append_inj' h rfl
      cases op with
      | read => cases hlast
      | write =>
        cases hlast
        exact hdue
    · rw [List.concat_eq_append, ← List.cons_append, ← List.append_assoc] at h
      exact hdue.ofWrite (List.append_inj' h rfl).1
  | exhausted hdue => exact hdue.ofWrite h
  | @rejected n k v raw hv =>
    obtain ⟨rest, h⟩ := split_left_of_not_mem h (write_not_mem_poll k raw)
    exact .ofStored hv (List.append_nil _).symm h
  | @answered n k v hv outcomes =>
    obtain ⟨rest, h⟩ := split_left_of_not_mem h (write_not_mem_readBack outcomes)
    obtain ⟨rest, h⟩ := split_left_of_not_mem h (write_not_mem_poll k _)
    exact .ofStored hv (List.append_nil _).symm h

end Writes

/-! ## §4. How often the response register is read. -/

section Counts

variable {b : RegisterBlock}

theorem readCount_append (address : UInt32) (as bs : List Access) :
    readCount address (as ++ bs) = readCount address as + readCount address bs :=
  List.countP_append

theorem readCount_read (address : UInt32) (outcome : Except NetworkFault UInt32) :
    readCount address [.read address outcome] = 1 :=
  List.countP_cons_of_pos (beq_self_eq_true _)

theorem readCount_zeroReads (n : Nat) : readCount b.response (b.zeroReads n) = n := by
  rw [readCount, RegisterBlock.zeroReads, List.countP_replicate]
  exact if_pos (beq_self_eq_true _)

theorem readCount_poll (n : Nat) (v : UInt32) : readCount b.response (b.poll n v) = n + 1 := by
  rw [RegisterBlock.poll, readCount_append, readCount_zeroReads, readCount_read]

theorem readCount_write (address a v : UInt32) (outcome : Except NetworkFault Unit) :
    readCount address [.write a v outcome] = 0 := rfl

theorem readCount_stored (address : UInt32) (ws : List (UInt32 × UInt32)) :
    readCount address (ws.map Access.stored) = 0 := by
  rw [readCount, List.countP_eq_zero]
  intro x hx
  obtain ⟨s, -, rfl⟩ := List.mem_map.1 hx
  exact Bool.false_ne_true

theorem readCount_readBack (h : b.registers.Nodup)
    (outcomes : Fin wordCount → Except NetworkFault UInt32) :
    readCount b.response (b.readBack outcomes) = 0 := by
  rw [readCount, List.countP_eq_zero]
  intro x hx
  obtain ⟨i, -, rfl⟩ := List.mem_map.1 hx
  simpa [Access.isReadOf] using (RegisterBlock.response_ne_argument h i).symm

end Counts

/-! ## §5. The steps of a transaction. -/

section Steps

variable {w : Window} {α β : Type}

/-- Two attempts in a row make their accesses in a row, unless the first one
fails. -/
theorem Program.Conducts.attempt {x : Attempt α} {f : α → Attempt β}
    {mid : List Access → Except Failure α → Prop} {post : List Access → Except Failure β → Prop}
    (hx : x.run.Conducts w mid)
    (herror : ∀ as e, mid as (.error e) → post as (.error e))
    (hok : ∀ as a, mid as (.ok a) → (f a).run.Conducts w fun bs r => post (as ++ bs) r) :
    (x >>= f).run.Conducts w post := by
  refine Conducts.bind hx ?_
  intro as r hr
  cases r with
  | error e =>
    refine conducts_pure ?_
    rw [List.append_nil]
    exact herror as e hr
  | ok a => exact hok as a hr

theorem Program.Conducts.lifted {p : Program α} {f : α → Attempt β}
    {mid : List Access → α → Prop} {post : List Access → Except Failure β → Prop}
    (hp : p.Conducts w mid)
    (hf : ∀ as a, mid as a → (f a).run.Conducts w fun bs r => post (as ++ bs) r) :
    ((p : Attempt α) >>= f).run.Conducts w post := by
  have hlift : (p : Attempt α).run.Conducts w fun as r => ∃ a, r = .ok a ∧ mid as a := by
    refine Conducts.bind hp ?_
    intro as a ha
    refine conducts_pure ⟨a, rfl, ?_⟩
    rwa [List.append_nil]
  refine hlift.attempt ?_ ?_
  · intro _ _ hpost
    obtain ⟨_, h, -⟩ := hpost
    cases h
  · intro as a hpost
    obtain ⟨_, h, ha⟩ := hpost
    cases h
    exact hf as a ha

theorem Program.Conducts.attemptNote {d : Diagnostic} {x : Attempt α}
    {post : List Access → Except Failure α → Prop} (h : x.run.Conducts w post) :
    ((note d : Attempt Unit) >>= fun _ => x).run.Conducts w post := by
  refine (Program.conducts_note d).lifted ?_
  intro _ _ heq
  subst heq
  exact h

variable {m : Mailboxes}

/-- One read, and a fault of it is the failure. -/
theorem conducts_readWord (a : UInt32) :
    (m.readWord a).run.Conducts m.window fun as r =>
      ∃ outcome, as = [.read a outcome] ∧ r = outcome.mapError .bus := by
  refine (conducts_read a).bind ?_
  intro _ outcome heq
  subst heq
  exact conducts_pure ⟨outcome, rfl, rfl⟩

theorem conducts_writeWord (a v : UInt32) :
    (m.writeWord a v).run.Conducts m.window fun as r =>
      ∃ outcome, as = [.write a v outcome] ∧ r = outcome.mapError .bus := by
  refine (conducts_write a v).bind ?_
  intro _ outcome heq
  subst heq
  exact conducts_pure ⟨outcome, rfl, rfl⟩

/-- What a poll with a given budget comes to. -/
inductive Polled (b : RegisterBlock) (budget : Nat) :
    List Access → Except Failure (UInt32 × Nat) → Prop where
  | answered {n left : Nat} {v : UInt32} (hv : v ≠ 0) (hleft : n + 1 + left = budget) :
      Polled b budget (b.poll n v) (.ok (v, left))
  | faulted {n : Nat} (f : NetworkFault) (hn : n < budget) :
      Polled b budget (b.zeroReads n ++ [.read b.response (.error f)]) (.error (.bus f))
  | exhausted : Polled b budget (b.zeroReads budget) (.error .timeout)

theorem Polled.cons {b : RegisterBlock} {budget : Nat} {as : List Access}
    {r : Except Failure (UInt32 × Nat)} (h : Polled b budget as r) :
    Polled b (budget + 1) (.read b.response (.ok 0) :: as) r := by
  cases h with
  | @answered n left v hv hleft => exact .answered (n := n + 1) hv (by omega)
  | @faulted n f hn => exact .faulted (n := n + 1) f (by omega)
  | exhausted => exact .exhausted

/-- Waiting for the response register is a poll. -/
theorem conducts_awaitResponse (b : RegisterBlock) (budget : Nat) :
    (m.awaitResponse b.response budget).run.Conducts m.window (Polled b budget) := by
  induction budget with
  | zero => exact conducts_pure .exhausted
  | succ budget ih =>
    refine (conducts_readWord b.response).attempt ?_ ?_
    · intro _ e hpost
      obtain ⟨outcome, rfl, hr⟩ := hpost
      cases outcome with
      | error f =>
        cases hr
        exact .faulted (n := 0) f (by omega)
      | ok v => cases hr
    · intro _ v hpost
      obtain ⟨outcome, rfl, hr⟩ := hpost
      cases outcome with
      | error f => cases hr
      | ok v' =>
        cases hr
        by_cases hv : v = 0
        · rw [if_pos hv, hv]
          exact ih.mono fun _ _ h => h.cons
        · rw [if_neg hv]
          exact conducts_pure (.answered (n := 0) hv (by omega))

/-- What storing some words in order comes to. -/
inductive Stored (ws : List (UInt32 × UInt32)) : List Access → Except Failure Unit → Prop where
  | done : Stored ws (ws.map Access.stored) (.ok ())
  | faulted (before after : List (UInt32 × UInt32)) {a v : UInt32} (f : NetworkFault)
      (hsplit : ws = before ++ (a, v) :: after) :
      Stored ws (before.map Access.stored ++ [.write a v (.error f)]) (.error (.bus f))

/-- Storing ends at the first fault, so more words after it do not matter. -/
theorem Stored.append_error {ws ws' : List (UInt32 × UInt32)} {as : List Access} {e : Failure}
    (h : Stored ws as (.error e)) : Stored (ws ++ ws') as (.error e) := by
  cases h with
  | faulted before after f hsplit =>
    refine .faulted before (after ++ ws') f ?_
    rw [hsplit, List.append_assoc, List.cons_append]

theorem Stored.append_ok {ws ws' : List (UInt32 × UInt32)} {as bs : List Access}
    {r : Except Failure Unit} (h : Stored ws as (.ok ())) (h' : Stored ws' bs r) :
    Stored (ws ++ ws') (as ++ bs) r := by
  cases h with
  | done =>
    cases h' with
    | done =>
      rw [← List.map_append]
      exact .done
    | faulted before after f hsplit =>
      rw [← List.append_assoc, ← List.map_append]
      refine .faulted _ after f ?_
      rw [hsplit, List.append_assoc]

theorem conducts_writeWord_stored (a v : UInt32) :
    (m.writeWord a v).run.Conducts m.window (Stored [(a, v)]) := by
  refine (conducts_writeWord a v).mono ?_
  intro _ _ hpost
  obtain ⟨outcome, rfl, rfl⟩ := hpost
  cases outcome with
  | error f => exact .faulted [] [] f rfl
  | ok _ => exact .done

theorem Program.Conducts.stored {x : Attempt Unit} {y : Attempt Unit}
    {ws ws' : List (UInt32 × UInt32)}
    (hx : x.run.Conducts w (Stored ws)) (hy : y.run.Conducts w (Stored ws')) :
    (x >>= fun _ => y).run.Conducts w (Stored (ws ++ ws')) := by
  refine hx.attempt ?_ ?_
  · intro as e h
    exact h.append_error
  · intro as _ h
    exact hy.mono fun _ _ h' => h.append_ok h'

theorem conducts_writeArguments (b : RegisterBlock) (sent : Arguments) :
    (m.writeArguments b sent).run.Conducts m.window
      (Stored (Arguments.positions.map fun i => (b.argument i.val, sent.get i))) := by
  unfold Mailboxes.writeArguments
  induction Arguments.positions with
  | nil => exact conducts_pure .done
  | cons i rest ih => exact (conducts_writeWord_stored _ _).stored ih

/-- The clear, the arguments and the opcode are one row of stored words; what
comes after them is reached only if all went through. -/
theorem conducts_request (b : RegisterBlock) (opcode : UInt32) (sent : Arguments)
    {rest : Attempt β} {post : List Access → Except Failure β → Prop}
    (herror : ∀ before a w after f, b.request opcode sent = before ++ (a, w) :: after →
      post (before.map Access.stored ++ [.write a w (.error f)]) (.error (.bus f)))
    (hok : rest.run.Conducts m.window fun bs r =>
      post ((b.request opcode sent).map Access.stored ++ bs) r) :
    (do m.writeWord b.response 0
        m.writeArguments b sent
        m.writeWord b.command opcode
        rest).run.Conducts m.window post := by
  have hrow : (do m.writeWord b.response 0
                  m.writeArguments b sent
                  m.writeWord b.command opcode).run.Conducts m.window
      (Stored (b.request opcode sent)) :=
    (conducts_writeWord_stored _ _).stored
      ((conducts_writeArguments b sent).stored (conducts_writeWord_stored _ _))
  -- binds nest to the right, and the row of writes stands in front of the rest
  have hregroup : (do m.writeWord b.response 0
                      m.writeArguments b sent
                      m.writeWord b.command opcode
                      rest) =
      ((do m.writeWord b.response 0
           m.writeArguments b sent
           m.writeWord b.command opcode) >>= fun _ => rest) := by
    simp only [bind_assoc]
  rw [hregroup]
  refine hrow.attempt ?_ ?_
  · intro as e h
    cases h with
    | @faulted before after a w f hsplit => exact herror before a w after f hsplit
  · intro as _ h
    cases h with
    | done => exact hok

/-- Reading words back over others, at positions that are all different. -/
theorem conducts_readBack_list {channel : Channel} {b : RegisterBlock}
    {positions : List (Fin wordCount)} (hnodup : positions.Nodup) (words : Arguments) :
    (positions.foldlM (m.readBack channel b) words).Conducts m.window fun as words' =>
      ∃ outcomes : Fin wordCount → Except NetworkFault UInt32,
        as = positions.map (fun i => .read (b.argument i.val) (outcomes i)) ∧
        ∀ i, (i ∈ positions → words'.get i = (outcomes i).toOption.getD (words.get i)) ∧
          (i ∉ positions → words'.get i = words.get i) := by
  induction positions generalizing words with
  | nil =>
    refine conducts_pure ⟨fun _ => .ok 0, rfl, fun i => ⟨fun hi => ?_, fun _ => rfl⟩⟩
    cases hi
  | cons i rest ih =>
    obtain ⟨hi, hrest⟩ := List.nodup_cons.1 hnodup
    rw [List.foldlM_cons]
    -- one word first: it changes at its own position and nowhere else
    have hone : (m.readBack channel b words i).Conducts m.window fun as words' =>
        ∃ outcome, as = [.read (b.argument i.val) outcome] ∧
          words' = words.set i (outcome.toOption.getD (words.get i)) := by
      refine (conducts_read (b.argument i.val)).bind ?_
      intro _ outcome heq
      subst heq
      cases outcome with
      | error f =>
        refine Conducts.afterNote (conducts_pure ⟨.error f, rfl, ?_⟩)
        apply Arguments.ext_get
        intro j
        rw [Arguments.get_set]
        split
        · next h => rw [h]; rfl
        · rfl
      | ok v => exact conducts_pure ⟨.ok v, rfl, rfl⟩
    refine hone.bind ?_
    intro _ words' hpost
    obtain ⟨outcome, rfl, rfl⟩ := hpost
    refine (ih hrest _).mono ?_
    intro as words' hpost
    obtain ⟨outcomes, rfl, hwords⟩ := hpost
    refine ⟨Function.update outcomes i outcome, ?_, ?_⟩
    · rw [List.map_cons, List.singleton_append, Function.update_self]
      congr 1
      apply List.map_congr_left
      intro j hj
      have hne : j ≠ i := fun h => hi (h ▸ hj)
      rw [Function.update_of_ne hne]
    · intro j
      have hget := Arguments.get_set words i j (outcome.toOption.getD (words.get i))
      by_cases hij : i = j
      · subst hij
        rw [if_pos rfl] at hget
        refine ⟨fun _ => ?_, fun hnot => absurd List.mem_cons_self hnot⟩
        rw [(hwords i).2 hi, hget, Function.update_self]
      · rw [if_neg hij] at hget
        have hne : j ≠ i := Ne.symm hij
        rw [Function.update_of_ne hne, List.mem_cons, ← hget]
        simpa [hne] using hwords j

/-- Reading all words back over those that were sent. -/
theorem conducts_readBack (channel : Channel) (b : RegisterBlock) (sent : Arguments) :
    (Arguments.positions.foldlM (m.readBack channel b) sent).Conducts m.window fun as words =>
      ∃ outcomes, as = b.readBack outcomes ∧ words = sent.received outcomes := by
  refine (conducts_readBack_list Arguments.nodup_positions sent).mono ?_
  intro as words hpost
  obtain ⟨outcomes, rfl, hwords⟩ := hpost
  refine ⟨outcomes, rfl, ?_⟩
  apply Arguments.ext_get
  intro i
  rw [(hwords i).1 (Arguments.mem_positions i), Arguments.received, Arguments.get_ofFn]

/-- What the status of the second poll leads to: the words of the answer, or a
rejection. -/
theorem conducts_conclude (channel : Channel) (b : RegisterBlock) (opcode : UInt32)
    (sent : Arguments) (raw : UInt32) :
    (if Status.ofRaw raw = .ok then do
        let words ← (Arguments.positions.foldlM (m.readBack channel b) sent : Program _)
        note (.requestAnswered channel opcode words)
        return words
      else do
        note (.requestRejected channel opcode (Status.ofRaw raw))
        Attempt.fail (.rejected (Status.ofRaw raw)) : Attempt Arguments).run.Conducts m.window
      fun as r =>
        (raw = ResponseCode.ok ∧ ∃ outcomes, as = b.readBack outcomes ∧
          r = .ok (sent.received outcomes)) ∨
        (raw ≠ ResponseCode.ok ∧ as = [] ∧ r = .error (.rejected (Status.ofRaw raw))) := by
  by_cases hok : Status.ofRaw raw = .ok
  · have hone : raw = ResponseCode.ok := (Status.ofRaw_eq_ok_iff raw).1 hok
    rw [if_pos hok]
    refine (conducts_readBack channel b sent).lifted ?_
    intro as words hwords
    obtain ⟨outcomes, rfl, rfl⟩ := hwords
    refine Conducts.attemptNote (conducts_pure ?_)
    rw [List.append_nil]
    exact .inl ⟨hone, outcomes, rfl, rfl⟩
  · have hfail : raw ≠ ResponseCode.ok := fun h => hok ((Status.ofRaw_eq_ok_iff raw).2 h)
    rw [if_neg hok]
    exact Conducts.attemptNote (conducts_pure (.inr ⟨hfail, rfl, rfl⟩))

end Steps

/-! ## §6. The whole transaction. -/

/-- A transaction keeps to a course, and reads the response register at most as
often as its budget says. -/
theorem conducts_execute {m : Mailboxes} {channel : Channel} {b : RegisterBlock}
    (hb : m.registers? channel = some b) (opcode : UInt32) (sent : Arguments) :
    (m.execute channel opcode sent).run.Conducts m.window fun as result =>
      Course b opcode sent m.budget as result ∧ readCount b.response as ≤ m.budget := by
  have hnodup : b.registers.Nodup := Codename.nodup_registers hb
  unfold Mailboxes.execute
  rw [hb]
  refine Conducts.attemptNote ?_
  refine (conducts_awaitResponse b m.budget).attempt ?_ ?_
  -- the first poll, with nothing stored so far
  · intro as e hpoll
    cases hpoll with
    | @faulted n f hn =>
      refine ⟨.faulted f (.gate n), ?_⟩
      rw [readCount_append, readCount_zeroReads, readCount_read]
      exact hn
    | exhausted =>
      exact ⟨.exhausted (.gate m.budget) (readCount_zeroReads _),
        Nat.le_of_eq (readCount_zeroReads _)⟩
  intro as polled hpoll
  obtain ⟨v, left⟩ := polled
  cases hpoll with
  | @answered n left v hv hleft =>
  refine conducts_request b opcode sent ?_ ?_
  -- a write that faults
  · intro before a w after f hsplit
    refine ⟨?_, ?_⟩
    · rw [← List.append_assoc]
      exact .faulted f (.request hv hsplit)
    · rw [readCount_append, readCount_poll, readCount_append, readCount_stored, readCount_write]
      omega
  -- the second poll may read as often as the first one left over
  refine (conducts_awaitResponse b left).attempt ?_ ?_
  · intro as e hpoll
    rw [← List.append_assoc]
    cases hpoll with
    | @faulted k f hk =>
      refine ⟨?_, ?_⟩
      · rw [← List.append_assoc]
        exact .faulted f (.completion k hv)
      · simp only [readCount_append, readCount_poll, readCount_stored, readCount_zeroReads,
          readCount_read]
        omega
    | exhausted =>
      have hspent : readCount b.response (b.poll n v ++
          (b.request opcode sent).map Access.stored ++ b.zeroReads left) = m.budget := by
        simp only [readCount_append, readCount_poll, readCount_stored, readCount_zeroReads]
        omega
      exact ⟨.exhausted (.completion left hv) hspent, Nat.le_of_eq hspent⟩
  intro as polled hpoll
  obtain ⟨raw, left'⟩ := polled
  cases hpoll with
  | @answered k left' raw hraw hleft' =>
  -- a status has come, and from here on the response register is not read any more
  have hspent : readCount b.response (b.poll n v ++ (b.request opcode sent).map Access.stored ++
      b.poll k raw) ≤ m.budget := by
    simp only [readCount_append, readCount_poll, readCount_stored]
    omega
  refine (conducts_conclude channel b opcode sent raw).mono ?_
  intro as r hend
  rw [← List.append_assoc, ← List.append_assoc]
  rcases hend with ⟨rfl, outcomes, rfl, rfl⟩ | ⟨hfail, rfl, rfl⟩
  · refine ⟨.answered hv outcomes, ?_⟩
    rw [readCount_append, readCount_readBack hnodup]
    exact hspent
  · rw [List.append_nil]
    exact ⟨.rejected hv hraw hfail, hspent⟩

/-- Without the mailbox nothing is accessed. -/
theorem conducts_execute_absent {m : Mailboxes} {channel : Channel}
    (hb : m.registers? channel = none) (opcode : UInt32) (sent : Arguments) :
    (m.execute channel opcode sent).run.Conducts m.window fun as result =>
      as = [] ∧ result = .error .unsupported := by
  unfold Mailboxes.execute
  rw [hb]
  exact conducts_pure ⟨rfl, rfl⟩

/-- However a platform answers, the accesses of a transaction keep to a course,
and its result tells which; the response register is read at most as often as
the budget says. -/
theorem execute_course {σ : Type} (platform : Platform σ) (s : σ) (m : Mailboxes)
    (channel : Channel) (opcode : UInt32) (sent : Arguments) :
    ∃ as, Traffic m.window ((m.execute channel opcode sent).run.journal platform s) as ∧
      match m.registers? channel with
      | none => as = [] ∧
          ((m.execute channel opcode sent).run.run platform s).1 = .error .unsupported
      | some b =>
          Course b opcode sent m.budget as ((m.execute channel opcode sent).run.run platform s).1 ∧
          readCount b.response as ≤ m.budget := by
  have hreach := Program.reaches_journal platform (m.execute channel opcode sent).run s
  cases hb : m.registers? channel with
  | none => exact conducts_execute_absent hb opcode sent _ _ hreach
  | some b => exact conducts_execute hb opcode sent _ _ hreach

end ManagementUnit
