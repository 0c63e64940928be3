import DiveCANHead.Lib.Runs
import DiveCANHead.Uds.Ota

/-!
# Runs of the firmware update (`uds_ota.c`)

Requests in any session, resets, and the other tenants of the maintenance arena come in
any order, and the flash answers anything. The update holds the arena exactly while it is
out of idle. Its two byte counters are not compared anywhere: they agree at the exit of a
download only when the client sends what it declared.
-/

namespace DiveCANHead.Uds

open DiveCANHead.Lib DiveCANHead.Maintenance

/-! ## Calls -/

inductive OtaCall where
  | handle (session : Session) (env : OtaEnv) (q : Request)
  | reset
  | arena (e : ArenaEvent)
  deriving DecidableEq

/-- A call that only the update itself makes to the arena. -/
def ByOta (e : ArenaEvent) : Prop := e = .claim .ota ∨ e = .release .ota

instance (e : ArenaEvent) : Decidable (ByOta e) := inferInstanceAs (Decidable (_ ∨ _))

def otaCall (h : Head) : OtaCall → Option Head
  | .handle session env q => some (otaHandle env { h with session := session, effects := [] } q)
  | .reset => some (otaReset h)
  | .arena e => if ByOta e then none else (arenaStep h.arena e).map fun a => { h with arena := a }

/-! ## What is held while a download is in progress -/

/-- The context, and with it the arena, is held exactly outside of idle. -/
structure OtaHeld (h : Head) : Prop where
  context : h.ota.state ≠ .idle ↔ h.ota.flashCtx = true
  owner : h.ota.flashCtx = true ↔ h.arena.owner = some .ota

theorem OtaHeld.null {h : Head} (hi : OtaHeld h) (hidle : h.ota.state = .idle) :
    h.ota.flashCtx = false := by
  by_contra hctx
  exact hi.context.mpr (Bool.not_eq_false _ ▸ hctx) hidle

theorem release_handOver (arena : Arena) (owner : MaintArenaOwner) :
    (maintArenaRelease (handOver arena owner) (some owner)).owner = none := by
  unfold maintArenaRelease
  rw [if_pos (show some owner = (handOver arena owner).owner from rfl)]

theorem release_owner_ne (arena : Arena) (owner : MaintArenaOwner) :
    (maintArenaRelease arena (some owner)).owner ≠ some owner := by
  unfold maintArenaRelease
  split
  · nofun
  · next h => exact fun ho => h ho.symm

/-- No other tenant takes the arena from the update, or leaves it to it. -/
theorem arenaStep_ota {s t : Arena} {e : ArenaEvent} (h : arenaStep s e = some t)
    (he : ¬ByOta e) : t.owner = some .ota ↔ s.owner = some .ota := by
  cases arenaStep_cases h with
  | denied | notHeld | building | wrote => exact Iff.rfl
  | @granted o hgrants =>
    have hother : o ≠ .ota := fun ho => he (.inl (congrArg ArenaEvent.claim ho))
    refine iff_of_false (fun ho => hother (Option.some.inj ho)) fun ho => ?_
    simp only [grants, evictable, ho] at hgrants
    cases o <;> simp_all
  | @released o ho =>
    have hother : o ≠ .ota := fun h => he (.inr (congrArg ArenaEvent.release h))
    refine iff_of_false (Option.some_ne_none _).symm fun hota => hother ?_
    exact Option.some.inj (ho.symm.trans hota)

theorem otaHeld_reset {h : Head} : OtaHeld (otaReset h) := by
  have hkept : (otaExit h.ota.state h).arena = h.arena := by
    cases h.ota.state <;> rfl
  refine ⟨iff_of_false (fun h => h rfl) nofun, iff_of_false nofun ?_⟩
  exact release_owner_ne _ _

theorem otaHeld_step {env : OtaEnv} {h h' : Head} {q : Request} (hi : OtaHeld h)
    (hstep : OtaStep env h q h') : OtaHeld h' := by
  cases hstep with
  | refused | block | unstaged => exact ⟨hi.context, hi.owner⟩
  | failed es hes hidle =>
    refine ⟨hi.context, ?_⟩
    rw [release_handOver, hi.null hidle]
    exact iff_of_false nofun nofun
  | download => exact ⟨iff_of_true nofun rfl, iff_of_true rfl rfl⟩
  | exit hsid hstate | activated hsid hstate =>
    have hctx := hi.context.mp (by rw [hstate]; nofun)
    exact ⟨iff_of_true nofun hctx, hi.owner⟩

/-- The log is kept quiet exactly while blocks arrive. -/
structure OtaQuiets (h : Head) : Prop where
  paused : h.flashLogPaused = decide (h.ota.state = .downloading)
  suspended : h.logPushSuspended = decide (h.ota.state = .downloading)

theorem otaQuiets_reset {h : Head} (hi : OtaQuiets h) : OtaQuiets (otaReset h) := by
  obtain ⟨hpaused, hsuspended⟩ := hi
  unfold otaReset otaSetState
  cases hstate : h.ota.state with
  | downloading => exact ⟨rfl, rfl⟩
  | idle | awaitingActivate | activating =>
    rw [hstate] at hpaused hsuspended
    exact ⟨hpaused, hsuspended⟩

theorem otaQuiets_step {env : OtaEnv} {h h' : Head} {q : Request} (hi : OtaQuiets h)
    (hstep : OtaStep env h q h') : OtaQuiets h' := by
  obtain ⟨hpaused, hsuspended⟩ := hi
  cases hstep with
  | refused | block => exact ⟨hpaused, hsuspended⟩
  | failed es hes hstate | unstaged es hes hstate =>
    refine ⟨?_, hsuspended⟩
    simp only [hstate]
    rfl
  | activated hsid hstate =>
    rw [hstate] at hsuspended
    exact ⟨rfl, hsuspended⟩
  | download | exit => exact ⟨rfl, rfl⟩

/-! ## Resources over a run -/

structure OtaInv (h : Head) : Prop where
  held : OtaHeld h
  quiets : OtaQuiets h

theorem otaInv_start : OtaInv {} :=
  ⟨⟨iff_of_false (fun h => h rfl) nofun, iff_of_false nofun nofun⟩, ⟨rfl, rfl⟩⟩

theorem otaCall_arena {h h' : Head} {e : ArenaEvent} (hstep : otaCall h (.arena e) = some h') :
    ¬ByOta e ∧ ∃ a, arenaStep h.arena e = some a ∧ h' = { h with arena := a } := by
  simp only [otaCall] at hstep
  split at hstep
  · cases hstep
  · next he =>
    obtain ⟨a, ha, rfl⟩ := Option.map_eq_some_iff.mp hstep
    exact ⟨he, a, ha, rfl⟩

theorem otaInv_call {h h' : Head} {c : OtaCall} (hi : OtaInv h) (hstep : otaCall h c = some h') :
    OtaInv h' := by
  cases c with
  | handle session env q =>
    obtain rfl := Option.some.inj hstep
    have hheld : OtaHeld { h with session := session, effects := [] } :=
      ⟨hi.held.context, hi.held.owner⟩
    have hquiets : OtaQuiets { h with session := session, effects := [] } :=
      ⟨hi.quiets.paused, hi.quiets.suspended⟩
    have hstep := otaHandle_step env _ q hheld.null
    exact ⟨otaHeld_step hheld hstep, otaQuiets_step hquiets hstep⟩
  | reset =>
    obtain rfl := Option.some.inj hstep
    exact ⟨otaHeld_reset, otaQuiets_reset hi.quiets⟩
  | arena e =>
    obtain ⟨he, a, ha, rfl⟩ := otaCall_arena hstep
    refine ⟨⟨hi.held.context, ?_⟩, ⟨hi.quiets.paused, hi.quiets.suspended⟩⟩
    exact hi.held.owner.trans (arenaStep_ota ha he).symm

/-- After any calls, the update is out of idle exactly when it has its context and exactly when
it owns the arena, and keeps the log quiet exactly while it is downloading. -/
theorem ota_resources {h : Head} {calls : List OtaCall} (hrun : exec otaCall {} calls = some h) :
    (h.ota.state ≠ .idle ↔ h.ota.flashCtx = true) ∧
      (h.ota.flashCtx = true ↔ h.arena.owner = some .ota) ∧
      (h.flashLogPaused = true ↔ h.ota.state = .downloading) ∧
      (h.logPushSuspended = true ↔ h.ota.state = .downloading) := by
  obtain ⟨hheld, hquiets⟩ := exec_inv otaInv_call otaInv_start hrun
  refine ⟨hheld.context, hheld.owner, ?_, ?_⟩
  · rw [hquiets.paused, decide_eq_true_iff]
  · rw [hquiets.suspended, decide_eq_true_iff]

/-- A RequestDownload of four bytes. -/
def otaRequest : Request := .ofBytes [0, 0x34, 0, 0x44, 0, 0, 0, 0, 0, 0, 0, 4]

def otaBlock (seq : UInt8) (data : List UInt8) : Request := .ofBytes (0 :: 0x36 :: seq :: data)

def otaTransferExit : Request := .ofBytes [0, 0x37]

/-- A download starts once the log stream has let go of the arena. -/
def contendedDownload : List OtaCall :=
  [.arena (.claim .logStream), .handle .programming {} otaRequest, .arena (.release .logStream),
    .handle .programming {} otaRequest, .arena (.claim .factory)]

theorem contendedDownload_resources : ∃ h, exec otaCall {} contendedDownload = some h ∧
    h.ota.state = .downloading ∧ h.arena.owner = some .ota ∧ h.flashLogPaused = true := by
  obtain ⟨h, hrun, hstate⟩ : ∃ h, exec otaCall {} contendedDownload = some h ∧
      h.ota.state = .downloading := ⟨_, rfl, by decide⟩
  obtain ⟨hcontext, howner, hpaused, -⟩ := ota_resources hrun
  exact ⟨h, hrun, hstate, howner.mp (hcontext.mp (by rw [hstate]; nofun)), hpaused.mpr hstate⟩

/-! ## The declared length -/

/-- A TransferData that the update acknowledges. -/
structure Acknowledges (env : OtaEnv) (h : Head) (q : Request) : Prop where
  sid : q.sid = sidTransferData
  state : h.ota.state = .downloading
  length : otaTransferMinReqLen ≤ q.length
  seq : q.byte 2 = h.ota.nextSeq
  write : env.write.rc = 0

/-- A RequestTransferExit that ends the download. -/
structure Exits (env : OtaEnv) (h : Head) (q : Request) : Prop where
  sid : q.sid = sidRequestTransferExit
  state : h.ota.state = .downloading
  length : otaExitMinReqLen ≤ q.length
  flush : env.flush.rc = 0
  header : env.bankHeader.rc = 0

/-- The client keeps to the length it declared: no block goes beyond it, and the exit comes when
all of it has arrived. -/
def KeepsLength (h : Head) : OtaCall → Prop
  | .handle _ env q =>
    (Acknowledges env h q → h.ota.bytesReceived.toNat + (q.length - otaTransferOverhead) ≤
        h.ota.bytesExpected.toNat) ∧
      (Exits env h q → h.ota.bytesReceived = h.ota.bytesExpected)
  | .reset | .arena _ => True

/-- No more is acknowledged than was declared, and all of it when the activation is awaited. -/
def Accounted (h : Head) (h' : Head) : Prop :=
  h'.ota.bytesReceived ≤ h'.ota.bytesExpected ∧
    (h.ota.state ≠ .awaitingActivate → h'.ota.state = .awaitingActivate →
      h'.ota.bytesReceived = h'.ota.bytesExpected)

instance (h h' : Head) : Decidable (Accounted h h') := inferInstanceAs (Decidable (_ ∧ _))

theorem accounted_step {session : Session} {env : OtaEnv} {h h' : Head} {q : Request}
    (hi : h.ota.bytesReceived ≤ h.ota.bytesExpected)
    (hkeeps : KeepsLength h (.handle session env q))
    (hstep : OtaStep env { h with session := session, effects := [] } q h') : Accounted h h' := by
  cases hstep with
  | refused | failed | unstaged => exact ⟨hi, fun hne heq => absurd heq hne⟩
  | download => exact ⟨UInt32.zero_le, nofun⟩
  | activated => exact ⟨hi, nofun⟩
  | block hsid hstate hlen hseq hwrite =>
    have hroom := hkeeps.1 ⟨hsid, hstate, hlen, hseq, hwrite⟩
    have hlt := h.ota.bytesExpected.toNat_lt
    have hsize : UInt32.size = 2 ^ 32 := rfl
    refine ⟨?_, fun hne heq => absurd heq hne⟩
    show h.ota.bytesReceived + UInt32.ofNat (q.length - otaTransferOverhead) ≤ h.ota.bytesExpected
    rw [UInt32.le_iff_toNat_le, UInt32.toNat_add, UInt32.toNat_ofNat_of_lt' (by omega),
      Nat.mod_eq_of_lt (by omega)]
    exact hroom
  | exit hsid hstate hlen hflush hheader =>
    exact ⟨hi, fun _ _ => hkeeps.2 ⟨hsid, hstate, hlen, hflush, hheader⟩⟩

/-- What a run keeps besides the resources. -/
structure LengthInv (h : Head) : Prop where
  inv : OtaInv h
  within : h.ota.bytesReceived ≤ h.ota.bytesExpected

theorem lengthInv_call {h h' : Head} {c : OtaCall} (hi : LengthInv h) (hkeeps : KeepsLength h c)
    (hstep : otaCall h c = some h') : LengthInv h' ∧ Accounted h h' := by
  have hacc : Accounted h h' := by
    cases c with
    | handle session env q =>
      obtain rfl := Option.some.inj hstep
      exact accounted_step hi.within hkeeps (otaHandle_step env _ q hi.inv.held.null)
    | reset =>
      obtain rfl := Option.some.inj hstep
      exact ⟨UInt32.le_refl _, nofun⟩
    | arena e =>
      obtain ⟨-, a, -, rfl⟩ := otaCall_arena hstep
      exact ⟨hi.within, fun hne heq => absurd heq hne⟩
  exact ⟨⟨otaInv_call hi.inv hstep, hacc.1⟩, hacc⟩

/-- While the client keeps to the length it declared, so does the update. -/
theorem ota_accounts {calls : List OtaCall}
    (hkeeps : Steps otaCall (fun h c _ => KeepsLength h c) {} calls) :
    Steps otaCall (fun h _ h' => Accounted h h') {} calls :=
  Steps.of_inv lengthInv_call ⟨otaInv_start, UInt32.zero_le⟩ hkeeps

/-- One block more than was declared, and an exit before anything has arrived. -/
theorem ota_unaccounted :
    ¬Steps otaCall (fun h _ h' => Accounted h h') {}
        [.handle .programming {} otaRequest, .handle .programming {} (otaBlock 1 [1, 2, 3, 4, 5])] ∧
      ¬Steps otaCall (fun h _ h' => Accounted h h') {}
        [.handle .programming {} otaRequest, .handle .programming {} otaTransferExit] := by
  decide +kernel

theorem ota_accounts_whole :
    Steps otaCall (fun h _ h' => Accounted h h') {}
      [.handle .programming {} otaRequest, .handle .programming {} (otaBlock 1 [1, 2, 3, 4]),
        .handle .programming {} otaTransferExit] := by
  refine ota_accounts ⟨⟨fun h => absurd h.sid (by decide), fun h => absurd h.sid (by decide)⟩,
    ⟨fun _ => by decide, fun h => absurd h.sid (by decide)⟩,
    ⟨fun h => absurd h.sid (by decide), fun _ => by decide⟩, trivial⟩

end DiveCANHead.Uds
