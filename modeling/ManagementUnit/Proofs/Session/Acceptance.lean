/-
  ManagementUnit.Proofs.Session.Acceptance
  ────────────────────────────────
  What can be written to the endpoints.

  Four endpoints take bytes, each in forms of its own:

      smu_args                the six argument words
      mp1_smu_cmd, rsmu_cmd   an opcode, as one byte or as a word
      smn                     an address, or an address and a value

  `Action.Spelled` lists the forms with the action that each one asks for.  Which
  bytes are taken is a matter of their number alone, and what is not taken is
  refused before anything is done.

  Main results:
    * `parse_eq_ok_iff`    — the decoder reads these forms and nothing else.
    * `write_accepted_iff` — a write is taken exactly if its endpoint is present and
      has a form of that many bytes; otherwise nothing changes and nobody is asked.
-/
import ManagementUnit.Session.Basic

namespace ManagementUnit

/-! ## §1. Written forms. -/

/-- An opcode is read from one byte, or from the four bytes of a word. -/
theorem Opcode.ofBytes?_eq_some_iff {bytes : Bytes} {opcode : UInt32} :
    Opcode.ofBytes? bytes = some opcode ↔
      (∃ b, bytes = [b] ∧ b.toUInt32 = opcode) ∨ bytes = Word.toBytes opcode := by
  unfold Opcode.ofBytes?
  split
  · next b =>
    constructor
    · intro h
      exact .inl ⟨b, rfl, Option.some.inj h⟩
    · rintro (⟨b', hb, rfl⟩ | h)
      · rw [List.singleton_inj.1 hb]
      · cases h
  · next hlong =>
    rw [Word.ofBytes?_eq_some_iff]
    refine ⟨.inr, ?_⟩
    rintro (⟨b, rfl, -⟩ | h)
    · exact absurd rfl (hlong b)
    · exact h

/-- How a network access is written. -/
def NetworkAccess.toBytes : NetworkAccess → Bytes
  | read address => Word.toBytes address
  | write address value => Word.toBytes address ++ Word.toBytes value

/-- A string reads as a network access exactly if it is how the access is
written. -/
theorem NetworkAccess.ofBytes?_eq_some_iff {bytes : Bytes} {a : NetworkAccess} :
    NetworkAccess.ofBytes? bytes = some a ↔ bytes = a.toBytes := by
  constructor
  · intro h
    unfold NetworkAccess.ofBytes? at h
    split at h
    · obtain ⟨address, haddress, rfl⟩ := Option.map_eq_some_iff.1 h
      exact Word.ofBytes?_eq_some_iff.1 haddress
    · split at h
      · obtain ⟨address, haddress, h⟩ := Option.bind_eq_some_iff.1 h
        obtain ⟨value, hvalue, h⟩ := Option.bind_eq_some_iff.1 h
        obtain rfl := Option.some.inj h
        rw [toBytes, ← Word.ofBytes?_eq_some_iff.1 haddress, ← Word.ofBytes?_eq_some_iff.1 hvalue,
          List.take_append_drop]
      · cases h
  · rintro rfl
    cases a with
    | read address =>
      show (Word.ofBytes? (Word.toBytes address)).map NetworkAccess.read = _
      rw [Word.ofBytes?_toBytes]
      rfl
    | write address value =>
      show (Word.ofBytes? (Word.toBytes address)).bind (fun address =>
        (Word.ofBytes? (Word.toBytes value)).bind fun value =>
          some (NetworkAccess.write address value)) = _
      rw [Word.ofBytes?_toBytes, Word.ofBytes?_toBytes]
      rfl

/-! ## §2. Actions. -/

/-- The endpoint to which the commands for a mailbox are written. -/
def Channel.endpoint : Channel → Endpoint
  | .mp1 => .mp1Command
  | .rsmu => .rsmuCommand

/-- How many bytes can be written to an endpoint. -/
def Endpoint.writeLengths : Endpoint → List Nat
  | .arguments => [24]
  | .mp1Command | .rsmuCommand => [1, 4]
  | .network => [4, 8]
  | _ => []

/-- Why a write to an endpoint is refused that is not present or does not take so
many bytes: absence comes first, then that nothing can be written there. -/
def Endpoint.refusal (e : Endpoint) (present : Bool) (length : Nat) : EndpointError :=
  if present = false then .unavailable e
  else if e.isWritable = false then .readOnly e
  else .invalidSize e length

namespace Session

/-- The bytes that ask for an action, and the endpoint that they are written
to. -/
inductive Action.Spelled : Action → Endpoint → Bytes → Prop where
  | arguments (words : Arguments) : Spelled (.setArguments words) .arguments words.toBytes
  | shortCommand (channel : Channel) (b : UInt8) :
      Spelled (.command channel b.toUInt32) channel.endpoint [b]
  | longCommand (channel : Channel) (opcode : UInt32) :
      Spelled (.command channel opcode) channel.endpoint (Word.toBytes opcode)
  | access (a : NetworkAccess) : Spelled (.access a) .network a.toBytes

variable {e : Endpoint} {input : Bytes}

/-- The opcodes of a command endpoint are commands for its mailbox. -/
theorem Action.spelled_of_opcode (channel : Channel) {opcode : UInt32}
    (h : Opcode.ofBytes? input = some opcode) :
    Spelled (.command channel opcode) channel.endpoint input := by
  rcases Opcode.ofBytes?_eq_some_iff.1 h with ⟨b, rfl, rfl⟩ | rfl
  · exact .shortCommand channel b
  · exact .longCommand channel opcode

/-- What is read from bytes is an action, or their number is wrong. -/
theorem Action.eq_some_of_sized {action? : Option Action} {action : Action} {error : EndpointError}
    (h : (match action? with
      | some action => Except.ok action
      | none => .error error) = .ok action) : action? = some action := by
  cases action? with
  | none => cases h
  | some a =>
    cases h
    rfl

/-- The decoder reads these forms and nothing else. -/
theorem Action.parse_eq_ok_iff {action : Action} :
    Action.parse e input = .ok action ↔ action.Spelled e input := by
  constructor
  · intro h
    unfold Action.parse at h
    cases e <;> dsimp only at h
    case arguments =>
      obtain ⟨words, hwords, rfl⟩ := Option.map_eq_some_iff.1 (eq_some_of_sized h)
      rw [Arguments.ofBytes?_eq_some_iff.1 hwords]
      exact .arguments words
    case mp1Command =>
      obtain ⟨opcode, hopcode, rfl⟩ := Option.map_eq_some_iff.1 (eq_some_of_sized h)
      exact spelled_of_opcode .mp1 hopcode
    case rsmuCommand =>
      obtain ⟨opcode, hopcode, rfl⟩ := Option.map_eq_some_iff.1 (eq_some_of_sized h)
      exact spelled_of_opcode .rsmu hopcode
    case network =>
      obtain ⟨a, ha, rfl⟩ := Option.map_eq_some_iff.1 (eq_some_of_sized h)
      rw [NetworkAccess.ofBytes?_eq_some_iff.1 ha]
      exact .access a
    all_goals cases h
  · intro h
    cases h with
    | arguments words => simp [Action.parse, Arguments.ofBytes?_toBytes]
    | shortCommand channel b => cases channel <;> rfl
    | longCommand channel opcode =>
      have hopcode := Opcode.ofBytes?_eq_some_iff.2 (.inr (Eq.refl (Word.toBytes opcode)))
      cases channel <;> simp [Action.parse, Channel.endpoint, hopcode]
    | access a => simp [Action.parse, NetworkAccess.ofBytes?_eq_some_iff.2 rfl]

/-- What it does not read, it refuses for one of two reasons. -/
theorem Action.error_of_parse {error : EndpointError} (h : Action.parse e input = .error error) :
    error = e.refusal true input.length := by
  unfold Action.parse at h
  cases e <;> dsimp only at h
  case arguments | mp1Command | rsmuCommand | network =>
    split at h <;> cases h
    rfl
  all_goals
    cases h
    rfl

/-! ## §3. Lengths. -/

/-- Every string of four bytes is a word as it is written. -/
theorem exists_toBytes_eq {bytes : Bytes} (h : bytes.length = 4) : ∃ w, bytes = Word.toBytes w := by
  obtain ⟨w, hw⟩ := Option.isSome_iff_exists.1 ((Word.isSome_ofBytes? bytes).2 h)
  exact ⟨w, Word.ofBytes?_eq_some_iff.1 hw⟩

/-- Any bytes of the right number ask for an action, and no others do. -/
theorem Action.exists_spelled_iff :
    (∃ action : Action, action.Spelled e input) ↔ input.length ∈ e.writeLengths := by
  have hcommand : ∀ channel : Channel, input.length = 1 ∨ input.length = 4 →
      ∃ action : Action, action.Spelled channel.endpoint input := by
    rintro channel (h | h)
    · obtain ⟨b, rfl⟩ := List.length_eq_one_iff.1 h
      exact ⟨_, .shortCommand channel b⟩
    · obtain ⟨opcode, rfl⟩ := exists_toBytes_eq h
      exact ⟨_, .longCommand channel opcode⟩
  constructor
  · rintro ⟨action, h⟩
    cases h with
    | arguments words => exact List.mem_singleton.2 words.length_toBytes
    | shortCommand channel b => cases channel <;> simp [Channel.endpoint, Endpoint.writeLengths]
    | longCommand channel opcode =>
      cases channel <;> simp [Channel.endpoint, Endpoint.writeLengths, Word.length_toBytes]
    | access a =>
      cases a <;> simp [NetworkAccess.toBytes, Endpoint.writeLengths, Word.length_toBytes]
  · intro h
    cases e <;> simp only [Endpoint.writeLengths, List.mem_cons, List.not_mem_nil, or_false] at h
    case arguments =>
      obtain ⟨words, hwords⟩ := Option.isSome_iff_exists.1 ((Arguments.isSome_ofBytes? input).2 h)
      rw [Arguments.ofBytes?_eq_some_iff.1 hwords]
      exact ⟨_, .arguments words⟩
    case mp1Command => exact hcommand .mp1 h
    case rsmuCommand => exact hcommand .rsmu h
    case network =>
      rcases h with h | h
      · obtain ⟨address, rfl⟩ := exists_toBytes_eq h
        exact ⟨_, .access (.read address)⟩
      · have hfront : (input.take 4).length = 4 := by
          rw [List.length_take]
          omega
        have hback : (input.drop 4).length = 4 := by
          rw [List.length_drop]
          omega
        obtain ⟨address, haddress⟩ := exists_toBytes_eq hfront
        obtain ⟨value, hvalue⟩ := exists_toBytes_eq hback
        have hinput : input = (NetworkAccess.write address value).toBytes := by
          rw [NetworkAccess.toBytes, ← haddress, ← hvalue, List.take_append_drop]
        rw [hinput]
        exact ⟨_, .access (.write address value)⟩

/-! ## §4. Writes. -/

/-- A write that is taken is the action that its bytes ask for. -/
theorem run_write_of_spelled {s : Session} {action : Action} (hpresent : s.isPresent e = true)
    (h : action.Spelled e input) :
    (write e input).run s =
      (perform action).run s >>= fun p => pure (.ok input.length, p.2) := by
  simp [write, hpresent, Action.parse_eq_ok_iff.2 h]

/-- Any other write is refused at once. -/
theorem run_write_of_refused {s : Session}
    (h : ¬ (s.isPresent e = true ∧ input.length ∈ e.writeLengths)) :
    (write e input).run s =
      pure (.error (e.refusal (s.isPresent e) input.length), s) := by
  cases hpresent : s.isPresent e with
  | false => simp [write, hpresent, Endpoint.refusal]
  | true =>
    cases hparsed : Action.parse e input with
    | ok action =>
      have hlength := Action.exists_spelled_iff.1 ⟨action, Action.parse_eq_ok_iff.1 hparsed⟩
      exact absurd ⟨hpresent, hlength⟩ h
    | error error =>
      rw [← Action.error_of_parse hparsed]
      simp [write, hpresent, hparsed]

/-- A write is taken exactly if its endpoint is present and takes so many bytes,
whatever becomes of the action.  Any other write is refused for the first reason
that there is, and leaves everything as it was: the session with the driver and its
table, and the platform, which is not asked anything. -/
theorem write_accepted_iff {σ : Type} (platform : Platform σ) (x : σ) (s : Session) (e : Endpoint)
    (input : Bytes) :
    ((((write e input).run s).run platform x).1.1 = .ok input.length ↔
      s.isPresent e = true ∧ input.length ∈ e.writeLengths) ∧
    (¬ (s.isPresent e = true ∧ input.length ∈ e.writeLengths) →
      ((write e input).run s).run platform x =
          ((.error (e.refusal (s.isPresent e) input.length), s), x) ∧
        ((write e input).run s).journal platform x = []) := by
  by_cases haccepted : s.isPresent e = true ∧ input.length ∈ e.writeLengths
  · obtain ⟨action, haction⟩ := Action.exists_spelled_iff.2 haccepted.2
    refine ⟨⟨fun _ => haccepted, fun _ => ?_⟩, fun h => absurd haccepted h⟩
    -- whatever the action comes to, the answer is the number of bytes
    rw [run_write_of_spelled haccepted.1 haction, Program.run_bind]
    rfl
  · rw [run_write_of_refused haccepted]
    refine ⟨⟨fun h => ?_, fun h => absurd h haccepted⟩, fun _ => ⟨rfl, rfl⟩⟩
    cases h

end Session
end ManagementUnit
