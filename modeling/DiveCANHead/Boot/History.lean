import Mathlib.Data.Int.Notation
import DiveCANHead.Lib.Rolling
import DiveCANHead.Lib.Runs

/-!
# The boot histories (`boot_history.c`)

Every boot takes a sequence number, appends a reboot record to one ring and, where the noinit RAM
holds a crash, a crash record to another. The rings are saved under two keys, and the counter lives
in the store of the reboot ring alone: a boot whose save of that store fails leaves its number to
the boot after it, whatever it saved under the other key.
-/

namespace DiveCANHead.Boot

open DiveCANHead.Lib

/-- `BOOT_HISTORY_DEPTH`. -/
def bootHistoryDepth : ℕ := 5

/-- `BOOT_HISTORY_MAGIC`. -/
def bootHistoryMagic : ℕ := 0x42484953

/-- `BOOT_HISTORY_STORAGE_VERSION`. -/
def bootHistoryStorageVersion : ℕ := 2

/-- The largest number the 32-bit counter holds. -/
def maxSequence : ℕ := 4294967295

/-- `CrashInfo_t`, less the magic that says whether it is there. -/
structure CrashInfo where
  reason : UInt32
  pc : UInt32
  lr : UInt32
  cfsr : UInt32
  sp : UInt32
  xpsr : UInt32
  excReturn : UInt32
  stackSource : UInt32
  thread : UInt32
  deriving DecidableEq

/-- `BootCrashRecord_t`. -/
structure BootCrashRecord extends CrashInfo where
  rebootSequence : ℕ
  deriving DecidableEq

/-- `BootRebootRecord_t`. -/
structure BootRebootRecord where
  rebootSequence : ℕ
  resetCause : ℕ
  deriving DecidableEq

/-- `CrashHistoryStore_t`: `count` and `records` are its ring. -/
structure CrashHistoryStore where
  magic : ℕ
  version : ℕ
  ring : Rolling BootCrashRecord bootHistoryDepth

/-- `RebootHistoryStore_t`. -/
structure RebootHistoryStore where
  magic : ℕ
  version : ℕ
  nextSequence : ℕ
  ring : Rolling BootRebootRecord bootHistoryDepth

/-- `crash_store_valid`. -/
def CrashHistoryStore.Valid (store : CrashHistoryStore) : Prop :=
  store.magic = bootHistoryMagic ∧ store.version = bootHistoryStorageVersion ∧
    store.ring.count ≤ bootHistoryDepth

instance (store : CrashHistoryStore) : Decidable store.Valid :=
  inferInstanceAs (Decidable (_ ∧ _ ∧ _))

/-- `reboot_store_valid`. -/
def RebootHistoryStore.Valid (store : RebootHistoryStore) : Prop :=
  store.magic = bootHistoryMagic ∧ store.version = bootHistoryStorageVersion ∧
    store.ring.count ≤ bootHistoryDepth ∧ store.nextSequence ≠ 0

instance (store : RebootHistoryStore) : Decidable store.Valid :=
  inferInstanceAs (Decidable (_ ∧ _ ∧ _ ∧ _))

/-- `reset_crash_store`. -/
def resetCrashStore : CrashHistoryStore where
  magic := bootHistoryMagic
  version := bootHistoryStorageVersion
  ring := { count := 0, records := fun _ => ⟨⟨0, 0, 0, 0, 0, 0, 0, 0, 0⟩, 0⟩ }

/-- `reset_reboot_store`. -/
def resetRebootStore : RebootHistoryStore where
  magic := bootHistoryMagic
  version := bootHistoryStorageVersion
  nextSequence := 1
  ring := { count := 0, records := fun _ => ⟨0, 0⟩ }

/-- The values under `bootdiag/crashes` and `bootdiag/reboots`, and what went there so far: the
number each boot took, the reboot records saved, and the crash records saved, each with the boot
that recovered it. -/
structure Flash where
  crashes : Option CrashHistoryStore := none
  reboots : Option RebootHistoryStore := none
  taken : List ℕ := []
  savedReboots : List BootRebootRecord := []
  savedCrashes : List (ℕ × BootCrashRecord) := []

/-- `load_crash_store`: a key never saved loads as no value of the size asked for. -/
def Flash.loadCrashStore (f : Flash) : CrashHistoryStore :=
  match f.crashes with
  | some store => if store.Valid then store else resetCrashStore
  | none => resetCrashStore

/-- `load_reboot_store`. -/
def Flash.loadRebootStore (f : Flash) : RebootHistoryStore :=
  match f.reboots with
  | some store => if store.Valid then store else resetRebootStore
  | none => resetRebootStore

/-- `allocate_reboot_sequence`: the number, and the store with the number after it. -/
def allocateRebootSequence (store : RebootHistoryStore) : ℕ × RebootHistoryStore :=
  let next := (store.nextSequence + 1) % (maxSequence + 1)
  (store.nextSequence, { store with nextSequence := if next = 0 then 1 else next })

/-- The noinit RAM and what `errors_init` found in it, the module state of `boot_history.c`, and
the flash. -/
structure History where
  initialized : Bool := false
  resetCause : ℕ := 0
  noinit : Option CrashInfo := none
  lastCrash : Option CrashInfo := none
  flash : Flash := {}

/-- `record_reboot`, whose save gives `rc`. -/
def recordReboot (h : History) (store : RebootHistoryStore) (sequence : ℕ) (rc : ℤ) : ℤ × History :=
  let record := { rebootSequence := sequence, resetCause := h.resetCause }
  let store := { store with ring := store.ring.append record }
  (rc, if rc = 0 then
      { h with flash := { h.flash with
          reboots := some store, savedReboots := h.flash.savedReboots ++ [record] } }
    else h)

/-- `record_crash`, whose save gives `rc`: `errors_acknowledge_last_crash` clears the noinit RAM. -/
def recordCrash (h : History) (store : CrashHistoryStore) (sequence : ℕ) (rc : ℤ) : ℤ × History :=
  match h.lastCrash with
  | none => (0, h)
  | some crash =>
    let record := { crash with rebootSequence := sequence }
    let store := { store with ring := store.ring.append record }
    (rc, if rc = 0 then
        { h with
          noinit := none
          flash := { h.flash with
            crashes := some store
            savedCrashes := h.flash.savedCrashes ++ [(h.flash.taken.length, record)] } }
      else h)

/-- What `boot_history_init` is answered: by `settings_subsys_init`, by `hwinfo_get_reset_cause`
with the cause it gives, by `hwinfo_clear_reset_cause` and by the two saves. -/
structure Startup where
  settingsRc : ℤ := 0
  causeRc : ℤ := 0
  cause : ℕ := 0
  clearRc : ℤ := 0
  rebootsRc : ℤ := 0
  crashesRc : ℤ := 0

/-- The result so far, or the next one where there was no error. -/
def firstError (result rc : ℤ) : ℤ := if result = 0 then rc else result

/-- `boot_history_init`. -/
def bootHistoryInit (h : History) (b : Startup) : ℤ × History :=
  if h.initialized then (0, h)
  else
    let (result, h) :=
      if b.causeRc ≠ 0 then
        (firstError b.settingsRc b.causeRc, { h with initialized := true, resetCause := 0 })
      else
        (firstError b.settingsRc b.clearRc, { h with initialized := true, resetCause := b.cause })
    if b.settingsRc = 0 then
      let (sequence, rebootStore) := allocateRebootSequence h.flash.loadRebootStore
      let (rc, h) := recordReboot h rebootStore sequence b.rebootsRc
      let result := firstError result rc
      let (rc, h) := recordCrash h h.flash.loadCrashStore sequence b.crashesRc
      (firstError result rc,
        { h with flash := { h.flash with taken := h.flash.taken ++ [sequence] } })
    else (result, h)

/-- `boot_history_get_crashes`. -/
def bootHistoryGetCrashes (f : Flash) (capacity : ℕ) : List BootCrashRecord :=
  f.loadCrashStore.ring.contents.reverse.take capacity

/-- `boot_history_get_reboots`. -/
def bootHistoryGetReboots (f : Flash) (capacity : ℕ) : List BootRebootRecord :=
  f.loadRebootStore.ring.contents.reverse.take capacity

end DiveCANHead.Boot
