import Distributed.CommandLedger.Shape
import Distributed.Foundation.PrefixCodes
import Distributed.Platform.JsonText
import Distributed.Platform.Utf8
import Mathlib.Data.List.GetD

/-! The checked identities of a ledger key, and the key of a row in the private table of a
cell host.
-/

namespace Distributed.CommandLedger

open Distributed.Foundation Distributed.Platform Distributed.ProjectionProtocol

structure Uuid where
  bytes : Bytes
  sixteen : bytes.length = 16
deriving DecidableEq

namespace Uuid

/-- `get_version_num`: the high half of the seventh byte. -/
def versionNum (uuid : Uuid) : Nat := (uuid.bytes.getD 6 0).toNat / 16

/-- `get_variant() == Variant::RFC4122`: the ninth byte starts with the bits `10`. -/
def isRfc4122 (uuid : Uuid) : Bool := (uuid.bytes.getD 8 0).toNat / 64 = 2

/-- The lowercase digits of `count` bytes from `start` on. -/
def group (uuid : Uuid) (start count : Nat) : String :=
  bytesHex ((uuid.bytes.drop start).take count)

def hyphenated (uuid : Uuid) : String :=
  uuid.group 0 4 ++ "-" ++ uuid.group 4 2 ++ "-" ++ uuid.group 6 2 ++ "-" ++ uuid.group 8 2
    ++ "-" ++ uuid.group 10 6

def IsV7 (uuid : Uuid) : Prop := uuid.versionNum = 7 ∧ uuid.isRfc4122 = true

instance (uuid : Uuid) : Decidable uuid.IsV7 := inferInstanceAs (Decidable (_ ∧ _))

end Uuid

/-- What the ledger asks of the `uuid` crate. -/
structure UuidCrate where
  parseStr : String → Option Uuid

def CommandId.parse (uuids : UuidCrate) (value : String)
    : Except CommandLedgerError CommandId :=
  match uuids.parseStr value with
  | none => .error (.invalid s!"command ID `{value}` must be a valid UUIDv7")
  | some parsed =>
      if parsed.IsV7 then .ok ⟨parsed.hyphenated⟩
      else .error (.invalid s!"command ID `{value}` must be an RFC 4122 UUIDv7")

def PrincipalPartitionId.new (value : String)
    : Except CommandLedgerError PrincipalPartitionId :=
  if h : isBlank value = false then .ok ⟨value, h⟩
  else .error (.invalid "principal partition must not be empty")

def CommandLedgerKey.new (serviceId : String) (principalPartition : PrincipalPartitionId)
    (commandId : CommandId) : Except CommandLedgerError CommandLedgerKey :=
  if h : isBlank serviceId = false then .ok ⟨serviceId, principalPartition, commandId, h⟩
  else .error (.invalid "command ledger service ID must not be empty")

/-- A key from its three texts, as a stored row gives them. -/
def CommandLedgerKey.parse (uuids : UuidCrate)
    (serviceId principalPartition commandId : String)
    : Except CommandLedgerError CommandLedgerKey := do
  let principalPartition ← PrincipalPartitionId.new principalPartition
  let commandId ← CommandId.parse uuids commandId
  CommandLedgerKey.new serviceId principalPartition commandId

def parseStoredUuidV7 (uuids : UuidCrate) (label value : String)
    : Except CommandLedgerError String :=
  match uuids.parseStr value with
  | none => .error (.corrupt s!"stored {label} is not a UUID")
  | some parsed =>
      if parsed.IsV7 then .ok parsed.hyphenated
      else .error (.corrupt s!"stored {label} is not an RFC 4122 UUIDv7")

def CausationId.parseStored (uuids : UuidCrate) (value : String)
    : Except CommandLedgerError CausationId := do
  let value ← parseStoredUuidV7 uuids "causation ID" value
  .ok ⟨value⟩

def AttemptToken.parseStored (uuids : UuidCrate) (value : String)
    : Except CommandLedgerError AttemptToken := do
  let value ← parseStoredUuidV7 uuids "attempt token" value
  .ok ⟨value⟩

/-- The text is the hyphenated spelling of a UUIDv7, as every id of the ledger is. -/
def Minted (text : String) : Prop :=
  ∃ uuid : Uuid, uuid.IsV7 ∧ text = uuid.hyphenated

theorem CommandId.parse_minted {uuids : UuidCrate} {value : String} {id : CommandId}
    (h : CommandId.parse uuids value = .ok id)
    : Minted id.value := by
  unfold CommandId.parse at h
  split at h
  · cases h
  · rename_i parsed _
    split at h
    · rename_i hv7
      rw [← Except.ok.inj h]
      exact ⟨parsed, hv7, rfl⟩
    · cases h

/-- The text is an id of the ledger, and the crate reads it back. -/
def UuidCrate.Spells (uuids : UuidCrate) (text : String) : Prop :=
  ∃ uuid : Uuid, uuid.IsV7 ∧ text = uuid.hyphenated ∧ uuids.parseStr text = some uuid

theorem UuidCrate.Spells.commandId_parse {uuids : UuidCrate} {id : CommandId}
    (h : uuids.Spells id.value)
    : CommandId.parse uuids id.value = .ok id := by
  obtain ⟨uuid, hv7, htext, hparse⟩ := h
  simp [CommandId.parse, hparse, hv7, ← htext]

theorem UuidCrate.Spells.parseStoredUuidV7 {uuids : UuidCrate} {text : String}
    (h : uuids.Spells text) (label : String)
    : parseStoredUuidV7 uuids label text = .ok text := by
  obtain ⟨uuid, hv7, htext, hparse⟩ := h
  simp [CommandLedger.parseStoredUuidV7, hparse, hv7, ← htext]

/-- The separator of the key material. -/
def nul : Char := Char.ofNat 0

/-- The three parts of the key with a NUL between them. -/
def CommandLedgerKey.cellMaterial (key : CommandLedgerKey) : String :=
  key.serviceId ++ nul.toString ++ key.principalPartition.value ++ nul.toString
    ++ key.commandId

def CommandLedgerRecord.durableCellKey (crates : Crates) (record : CommandLedgerRecord)
    : String :=
  "v1." ++ crates.base64Encode (utf8Bytes record.key.cellMaterial)

theorem hexDigit_ne_nul (nibble : Nat) : hexDigit nibble ≠ nul := by
  unfold hexDigit
  rcases Nat.lt_or_ge nibble 16 with h | h
  · rw [List.getD_eq_getElem _ _ h]
    have hdigits : (['0', '1', '2', '3', '4', '5', '6', '7', '8', '9', 'a', 'b', 'c', 'd',
        'e', 'f'].all fun c => c ≠ nul) = true := by decide
    simpa using List.all_eq_true.mp hdigits _ (List.getElem_mem _)
  · rw [List.getD_eq_default _ _ h]
    decide

theorem nul_notMem_group (uuid : Uuid) (start count : Nat)
    : nul ∉ (uuid.group start count).toList := by
  simp only [Uuid.group, bytesHex, String.toList_ofList, List.mem_flatMap, not_exists, not_and]
  intro byte _ hmem
  rcases List.mem_pair.mp hmem with h | h
  · exact hexDigit_ne_nul _ h.symm
  · exact hexDigit_ne_nul _ h.symm

theorem Minted.nul_notMem {text : String} (h : Minted text)
    : nul ∉ text.toList := by
  obtain ⟨uuid, -, rfl⟩ := h
  have hyphen : nul ∉ "-".toList := by decide
  simp only [Uuid.hyphenated, String.toList_append, List.mem_append, not_or]
  simp only [nul_notMem_group, hyphen, not_false_eq_true, and_self]

/-- What follows the last separator and what stands before it are determined by the
whole. -/
theorem after_last_separator {α : Type} {separator : α}
    {first second rest rest' : List α} (hrest : separator ∉ rest)
    (hrest' : separator ∉ rest') (h : first ++ separator :: rest = second ++ separator :: rest')
    : first = second ∧ rest = rest' := by
  have hreversed : rest.reverse ++ separator :: first.reverse
      = rest'.reverse ++ separator :: second.reverse := by
    simpa using congrArg List.reverse h
  obtain ⟨hafter, hbefore⟩ := delimited_inj (by simpa using hrest)
    (by simpa using hrest') hreversed
  exact ⟨List.reverse_injective hbefore, List.reverse_injective hafter⟩

theorem CommandLedgerKey.parse_ok {uuids : UuidCrate} {service principal command : String}
    {key : CommandLedgerKey}
    (h : CommandLedgerKey.parse uuids service principal command = .ok key)
    : Minted key.id.value := by
  simp only [CommandLedgerKey.parse, Result.bind_eq_ok_iff, CommandLedgerKey.new] at h
  obtain ⟨partition, -, id, hid, hkey⟩ := h
  split at hkey
  · cases hkey
    exact CommandId.parse_minted hid
  · cases hkey

/-- The second key's service id is the first one's, a NUL and text with which, and a NUL
again, the first one's principal starts: the two keys have one material. -/
def CommandLedgerKey.Absorbs (first second : CommandLedgerKey) : Prop :=
  ∃ more : List Char,
    second.serviceId.toList = first.serviceId.toList ++ nul :: more
    ∧ first.principalPartition.value.toList
      = more ++ nul :: second.principalPartition.value.toList
    ∧ first.id = second.id

theorem CommandLedgerKey.cellMaterial_toList (key : CommandLedgerKey)
    : key.cellMaterial.toList = (key.serviceId.toList
        ++ nul :: key.principalPartition.value.toList) ++ nul :: key.id.value.toList := by
  simp [CommandLedgerKey.cellMaterial, CommandLedgerKey.commandId]

theorem CommandLedgerKey.Absorbs.cellMaterial_eq {first second : CommandLedgerKey}
    (h : first.Absorbs second)
    : first.cellMaterial = second.cellMaterial := by
  obtain ⟨more, hservice, hprincipal, hid⟩ := h
  apply String.toList_inj.mp
  simp [CommandLedgerKey.cellMaterial_toList, hservice, hprincipal, hid]

theorem CommandLedgerKey.Absorbs.serviceId_ne {first second : CommandLedgerKey}
    (h : first.Absorbs second)
    : first.serviceId ≠ second.serviceId := by
  obtain ⟨more, hservice, -⟩ := h
  intro heq
  have hlength := congrArg List.length (heq ▸ hservice)
  simp at hlength

/-- Keys of one material are equal unless one absorbs the other. -/
theorem cellMaterial_determines_key {first second : CommandLedgerKey}
    (hid : Minted first.id.value) (hid' : Minted second.id.value)
    (h : first.cellMaterial = second.cellMaterial)
    : first = second ∨ first.Absorbs second ∨ second.Absorbs first := by
  have hchars := congrArg String.toList h
  rw [CommandLedgerKey.cellMaterial_toList, CommandLedgerKey.cellMaterial_toList] at hchars
  obtain ⟨hfront, hcommand⟩ := after_last_separator hid.nul_notMem hid'.nul_notMem hchars
  obtain ⟨service, ⟨principal, _⟩, ⟨id⟩, _⟩ := first
  obtain ⟨service', ⟨principal', _⟩, ⟨id'⟩, _⟩ := second
  cases String.toList_inj.mp hcommand
  -- the longer service id reaches into the other key's principal
  rcases append_delimiter_eq_iff.mp hfront with
    ⟨hservice, hprincipal⟩ | ⟨more, hservice, hprincipal⟩ | ⟨more, hservice, hprincipal⟩
  · cases String.toList_inj.mp hservice
    cases String.toList_inj.mp hprincipal
    exact .inl rfl
  · exact .inr (.inl ⟨more, hservice, hprincipal, rfl⟩)
  · exact .inr (.inr ⟨more, hservice, hprincipal, rfl⟩)

/-- Rows of keys that were parsed share a cell only if their keys are equal, if and only if
neither key absorbs the other. -/
theorem durableCellKey_determines_key (crates : Crates) (uuids : UuidCrate)
    (hbase64 : Function.Injective crates.base64Encode)
    {first second : CommandLedgerRecord}
    (hfirst : ∃ service principal command,
      CommandLedgerKey.parse uuids service principal command = .ok first.key)
    (hsecond : ∃ service principal command,
      CommandLedgerKey.parse uuids service principal command = .ok second.key)
    : (first.durableCellKey crates = second.durableCellKey crates → first.key = second.key)
      ↔ ¬ first.key.Absorbs second.key ∧ ¬ second.key.Absorbs first.key := by
  obtain ⟨_, _, _, hparse⟩ := hfirst
  obtain ⟨_, _, _, hparse'⟩ := hsecond
  constructor
  · intro hdetermined
    refine ⟨fun habsorbs => habsorbs.serviceId_ne ?_, fun habsorbs => habsorbs.serviceId_ne ?_⟩
    · rw [hdetermined (by simp only [CommandLedgerRecord.durableCellKey,
        habsorbs.cellMaterial_eq])]
    · rw [hdetermined (by simp only [CommandLedgerRecord.durableCellKey,
        habsorbs.cellMaterial_eq])]
  · rintro ⟨habsorbs, habsorbs'⟩ heq
    have hencoded : crates.base64Encode (utf8Bytes first.key.cellMaterial)
        = crates.base64Encode (utf8Bytes second.key.cellMaterial) := by
      simpa [CommandLedgerRecord.durableCellKey] using heq
    have hmaterial := utf8Bytes_injective (hbase64 hencoded)
    rcases cellMaterial_determines_key (CommandLedgerKey.parse_ok hparse)
      (CommandLedgerKey.parse_ok hparse') hmaterial with hkey | h | h
    · exact hkey
    · exact absurd h habsorbs
    · exact absurd h habsorbs'

/-- `01890a5d-ac96-774b-bcce-b302099a8057`. -/
def todoUuid : Uuid :=
  ⟨[0x01, 0x89, 0x0a, 0x5d, 0xac, 0x96, 0x77, 0x4b, 0xbc, 0xce, 0xb3, 0x02, 0x09, 0x9a, 0x80,
    0x57], rfl⟩

/-- The crate on the one id that is used. -/
def todoUuids : UuidCrate where
  parseStr text := if text = todoUuid.hyphenated then some todoUuid else none

/-- The first attempt's row under a service and a principal. -/
def todoRowOf (service principal : String) (hservice : isBlank service = false)
    (hprincipal : isBlank principal = false) : CommandLedgerRecord where
  key := ⟨service, ⟨principal, hprincipal⟩, ⟨todoUuid.hyphenated⟩, hservice⟩
  commandName := "create_todo"
  contractFingerprint := .replicate 1
  inputHash := .replicate 2
  state := .retryableUnknown
  causationId := ⟨todoUuid.hyphenated⟩
  attemptToken := none
  attemptNumber := 1
  leaseExpiresAt := none
  outcomeJson := none
  createdAt := 0
  updatedAt := 0
  completedAt := none
  retentionExpiresAt := 1
  compactedAt := none

theorem parse_todoRowOf (service principal : String) (hservice : isBlank service = false)
    (hprincipal : isBlank principal = false)
    : CommandLedgerKey.parse todoUuids service principal todoUuid.hyphenated
      = .ok (todoRowOf service principal hservice hprincipal).key := by
  have hid : CommandId.parse todoUuids todoUuid.hyphenated = .ok ⟨todoUuid.hyphenated⟩ := by
    simp [CommandId.parse, todoUuids, show todoUuid.IsV7 by decide]
  simp [CommandLedgerKey.parse, PrincipalPartitionId.new, CommandLedgerKey.new, hid, hservice,
    hprincipal, todoRowOf]

/-- Two principals of one service have two cells, also where their names hold a NUL. -/
theorem alice_and_bob_have_two_cells
    : (todoRowOf "todos" "alice\x00bob" rfl rfl).durableCellKey (serdeCrates [] "")
      ≠ (todoRowOf "todos" "bob" rfl rfl).durableCellKey (serdeCrates [] "") := by
  have hservice {first second : CommandLedgerKey} (heq : first.serviceId = second.serviceId)
      : ¬ first.Absorbs second := fun habsorbs => habsorbs.serviceId_ne heq
  intro heq
  have hkey := (durableCellKey_determines_key (serdeCrates [] "") todoUuids
    (serdeCrates_base64_injective [] "")
    ⟨_, _, _, parse_todoRowOf "todos" "alice\x00bob" rfl rfl⟩
    ⟨_, _, _, parse_todoRowOf "todos" "bob" rfl rfl⟩).mpr ⟨hservice rfl, hservice rfl⟩ heq
  exact absurd (congrArg (·.principalPartition.value) hkey) (by decide)

/-- A service whose id ends in a NUL and the name of a principal shares the cells of
principals of another service. -/
theorem nul_in_service_id_shares_cell
    : (∃ service principal command, CommandLedgerKey.parse todoUuids service principal command
          = .ok (todoRowOf "todos\x00alice" "bob" rfl rfl).key)
      ∧ (∃ service principal command, CommandLedgerKey.parse todoUuids service principal command
          = .ok (todoRowOf "todos" "alice\x00bob" rfl rfl).key)
      ∧ (todoRowOf "todos\x00alice" "bob" rfl rfl).durableCellKey (serdeCrates [] "")
        = (todoRowOf "todos" "alice\x00bob" rfl rfl).durableCellKey (serdeCrates [] "")
      ∧ (todoRowOf "todos\x00alice" "bob" rfl rfl).key.serviceId
        ≠ (todoRowOf "todos" "alice\x00bob" rfl rfl).key.serviceId := by
  refine ⟨⟨_, _, _, parse_todoRowOf _ _ rfl rfl⟩, ⟨_, _, _, parse_todoRowOf _ _ rfl rfl⟩, ?_,
    by decide⟩
  have habsorbs : (todoRowOf "todos" "alice\x00bob" rfl rfl).key.Absorbs
      (todoRowOf "todos\x00alice" "bob" rfl rfl).key :=
    ⟨"alice".toList, by decide, by decide, rfl⟩
  rw [CommandLedgerRecord.durableCellKey, CommandLedgerRecord.durableCellKey,
    habsorbs.cellMaterial_eq]

end Distributed.CommandLedger
