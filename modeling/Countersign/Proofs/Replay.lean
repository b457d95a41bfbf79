import Countersign.Proofs.Commitment
import Countersign.Proofs.Submission

/-!
# No payload is accepted twice

Every accepted payload carries its signer's nonce and uses it up, and nothing else moves a nonce. So
the accepted payloads of a signer are numbered 0, 1, 2, … along a run, no two have the same digest
unless the hash collides, and a payload that is submitted again is reported as a replay before
anything else is wrong with it.
-/

namespace Countersign

open MetaTx (MetaStep)

/-! ## A payload stays authentic -/

section Authentic

variable {e e' : Engine} {tx : MetaTx.Signed} {now : UInt64} {gasPrice : Amount} {step : MetaStep}
  {relay : MetaTx.Relay}

theorem MetaTx.Verifier.Authentic.grows (h : e.verifier.Authentic tx now gasPrice)
    (g : Engine.Grows e e') {now' : UInt64} {gasPrice' : Amount}
    (deadline : now' ≤ tx.terms.deadline)
    (gas : tx.terms.maxGasPrice = 0 ∨ gasPrice' ≤ tx.terms.maxGasPrice) :
    e'.verifier.Authentic tx now' gasPrice' :=
  { h with
    chain := h.chain.trans g.chain.symm
    contract := h.contract.trans g.contract.symm
    deadline := deadline
    gasPrice := gas }

namespace Engine

/-! ## A payload with a used nonce -/

/-- What a used nonce is answered with. -/
def replayFault (e : Engine) (tx : MetaTx.Signed) : Fault :=
  .nonceReplayed tx.terms.signer (e.nonce tx.terms.signer) tx.terms.nonce

theorem check_replayed (authentic : e.verifier.Authentic tx now gasPrice)
    (used : tx.terms.nonce ≠ e.nonce tx.terms.signer) :
    e.verifier.check tx now gasPrice = .error (e.replayFault tx) := by
  rw [authentic.check_eq, MetaTx.Nonces.requireNext]
  exact ensure_eq_error_iff.mpr ⟨used, rfl⟩

/-- A used nonce is found out before anything is said of the record. -/
theorem checkClosing_replayed (action : tx.terms.action = step.signing)
    (authentic : e.verifier.Authentic tx e.clock relay.gasPrice)
    (used : tx.terms.nonce ≠ e.nonce tx.terms.signer) :
    e.checkClosing step tx relay = .error (e.replayFault tx) := by
  have hs : requireStep step tx.terms.action = .ok () := ensure_eq_ok_iff.mpr action
  rw [checkClosing, hs, check_replayed authentic used]
  rfl

/-- What is checked of a request before its nonce stays as it was when it was accepted. -/
theorem checkOpening_replayed {first : MetaTx.Relay} {release : UInt64}
    (may : e.MayOpen tx first release) (g : Grows e e')
    (authentic : e'.verifier.Authentic tx e'.clock relay.gasPrice)
    (used : tx.terms.nonce ≠ e'.nonce tx.terms.signer) :
    e'.checkOpening tx relay = .error (e'.replayFault tx) := by
  have h1 : requireStep .requestAndApprove tx.terms.action = .ok () :=
    ensure_eq_ok_iff.mpr may.action
  have h2 : e'.requireOperation tx.snapshot.request.operation = .ok () :=
    ensure_eq_ok_iff.mpr (g.contains may.registered)
  have h3 := requireHandler_eq_ok_iff.mpr (g.serves may.served)
  have h4 : e'.requireWorkflow tx.snapshot.request.operation [] MetaStep.requestAndApprove.signing
      [MetaStep.requestAndApprove.executing] = .ok () :=
    ensure_eq_ok_iff.mpr (g.permits may.onPath)
  have h5 : e'.requireExecution tx.snapshot.request = .ok () :=
    requireExecution_eq_ok_iff.mpr (g.identity ▸ may.execution)
  have h6 : e'.requireSnapshotPayment tx.snapshot = .ok () :=
    requireSnapshotPayment_eq_ok_iff.mpr (g.identity ▸ may.payment)
  have h7 : tx.snapshot.txId.isAllocated = false := isAllocated_eq_false_iff.mpr may.unallocated
  rw [checkOpening]
  simp only [h1, h2, h3, h4, h5, h6, h7, may.requester, check_replayed authentic used, ensure,
    ↓reduceIte, bind, Except.bind]

theorem nonce_of_spend {signer : Identity} (h : e'.verifier = e.verifier.spend signer)
    (other : Identity) :
    e'.nonce other = if other = signer then e.nonce signer + 1 else e.nonce other := by
  rw [Engine.nonce, h, MetaTx.Verifier.nonce_spend]
  rfl

/-- After a payload has been accepted, its signer's nonce is above the one it carries. -/
theorem Submitted.nonce_lt (h : e.Submitted step tx relay)
    (g : Grows (e.step (step.submit tx relay)).1 e') :
    tx.terms.nonce < e'.nonce tx.terms.signer := by
  refine UInt64.lt_of_lt_of_le ?_ (g.nonce _)
  rw [nonce_of_spend h.spent, if_pos rfl, h.signed.nonce, UInt64.lt_iff_toNat_lt,
    toNat_add_one h.fits]
  exact Nat.lt_succ_self _

/-- An accepted payload that is submitted again, to the same entry point and before its deadline, is
reported as a replay, and nothing changes. -/
theorem step_replayed {first : MetaTx.Relay} {reply : Reply}
    (accepted : (e.step (step.submit tx first)).2 = .ok reply)
    (g : Grows (e.step (step.submit tx first)).1 e') (deadline : e'.clock ≤ tx.terms.deadline)
    (gas : tx.terms.maxGasPrice = 0 ∨ relay.gasPrice ≤ tx.terms.maxGasPrice) :
    e'.step (step.submit tx relay) = (e', .error (e'.replayFault tx)) := by
  have hs := submitted_of_ok accepted
  have hg : Grows e e' := (grows_step e _).trans g
  have authentic := hs.signed.authentic.grows hg deadline gas
  have used : tx.terms.nonce ≠ e'.nonce tx.terms.signer := UInt64.ne_of_lt (hs.nonce_lt g)
  apply step_submit_of_error
  · exact fun _ => checkClosing_replayed hs.signed.action authentic used
  · rintro rfl
    obtain ⟨_, ha⟩ : ∃ e₁, e.Accepts (.requestSigned tx first) e₁ reply :=
      ⟨_, step_eq_ok_iff.mp (step_eq_of_ok accepted)⟩
    cases ha with
    | requestSigned may fits room => exact checkOpening_replayed may hg authentic used

end Engine

end Authentic

namespace Engine

variable {e e' : Engine} {c : Command} {cs ds : List Command}

/-! ## The nonces of a run -/

/-- The nonces of a signer's payloads, in order. -/
def noncesOf (signer : Identity) (txs : List MetaTx.Signed) : List Nat :=
  (txs.filter fun tx => tx.terms.signer = signer).map fun tx => tx.terms.nonce.toNat

theorem noncesOf_append {signer : Identity} {txs tys : List MetaTx.Signed} :
    noncesOf signer (txs ++ tys) = noncesOf signer txs ++ noncesOf signer tys := by
  rw [noncesOf, List.filter_append, List.map_append]
  rfl

/-- As long as records fit, a step uses up the nonce of the payload it accepts and no other. -/
theorem verifier_step (numbered : e.ledger.Numbered)
    (fits : e.ledger.next.toNat + 1 < UInt64.size) (c : Command) :
    (e.acceptedAt c = [] ∧ (e.step c).1.verifier = e.verifier) ∨
      ∃ tx, e.acceptedAt c = [tx] ∧ tx.terms.nonce = e.nonce tx.terms.signer ∧
        e.HasNonce tx.terms.signer ∧ (e.step c).1.verifier = e.verifier.spend tx.terms.signer := by
  unfold acceptedAt
  rcases step_cases numbered c with ⟨e', reply, h⟩ | ⟨fault, h | ⟨exhausted, _⟩⟩
  · rw [h.step_eq]
    rcases h.verifier_cases with ⟨hc, hv⟩ | ⟨step, tx, relay, rfl, hs, hn, hv⟩
    · exact .inl ⟨by rw [hc]; rfl, hv⟩
    · exact .inr ⟨tx, by rw [Command.payload?_submit]; rfl, hs.nonce, hn, hv⟩
  · rw [h]
    exact .inl ⟨rfl, rfl⟩
  · omega

theorem nonces_step (numbered : e.ledger.Numbered) (fits : e.ledger.next.toNat + 1 < UInt64.size)
    (c : Command) (signer : Identity) :
    ((e.step c).1.nonce signer).toNat =
        (e.nonce signer).toNat + (noncesOf signer (e.acceptedAt c)).length ∧
      noncesOf signer (e.acceptedAt c) =
        List.range' (e.nonce signer).toNat (noncesOf signer (e.acceptedAt c)).length := by
  rcases verifier_step numbered fits c with ⟨ha, hv⟩ | ⟨tx, ha, hn, hf, hv⟩
  · rw [ha, Engine.nonce, hv]
    exact ⟨rfl, rfl⟩
  · rw [ha, nonce_of_spend hv]
    by_cases hs : signer = tx.terms.signer
    · subst hs
      have hone : noncesOf tx.terms.signer [tx] = [(e.nonce tx.terms.signer).toNat] := by
        simp [noncesOf, hn]
      rw [hone, if_pos rfl]
      exact ⟨toNat_add_one hf, rfl⟩
    · have hnil : noncesOf signer [tx] = [] := by
        simp [noncesOf, Ne.symm hs]
      rw [hnil, if_neg hs]
      exact ⟨rfl, rfl⟩

/-- A signer's accepted payloads are numbered on from the nonce at the beginning. -/
theorem nonces_run (numbered : e.ledger.Numbered)
    (fits : (e.run cs).ledger.next.toNat + 1 < UInt64.size) (signer : Identity) :
    ((e.run cs).nonce signer).toNat =
        (e.nonce signer).toNat + (noncesOf signer (e.accepted cs)).length ∧
      noncesOf signer (e.accepted cs) =
        List.range' (e.nonce signer).toNat (noncesOf signer (e.accepted cs)).length := by
  induction cs generalizing e with
  | nil => exact ⟨rfl, rfl⟩
  | cons c cs ih =>
    -- Numbers only go up, so what fits at the end fits all along.
    have hle : e.ledger.next.toNat ≤ (e.run (c :: cs)).ledger.next.toNat :=
      UInt64.le_iff_toNat_le.mp (grows_run e (c :: cs)).next
    obtain ⟨h1, h2⟩ := nonces_step numbered (by omega) c signer
    obtain ⟨h3, h4⟩ := ih (numbered_step numbered c) fits
    rw [accepted, noncesOf_append, List.length_append]
    constructor
    · rw [run_cons, h3, h1]
      omega
    · rw [← List.range'_append, ← h2, h4, h1]
      simp

/-! ## Digests -/

/-- The hash tells the byte strings of a list apart. -/
def NoCollision (inputs : List Bytes) : Prop :=
  ∀ x ∈ inputs, ∀ y ∈ inputs, Blake3.hash x = Blake3.hash y → x = y

/-- What the digest of a payload is the hash of. -/
def signedBytes (tx : MetaTx.Signed) : Bytes := MetaTx.preimage tx.snapshot tx.terms

/-- The signed bytes say by whom, for which engine and with which nonce, whatever else they hold. -/
theorem signedBytes_inj {a b : MetaTx.Signed} (h : signedBytes a = signedBytes b) :
    a.terms.signer = b.terms.signer ∧ a.terms.nonce = b.terms.nonce ∧
      a.terms.chainId = b.terms.chainId ∧ a.terms.contract = b.terms.contract := by
  obtain ⟨hhead, -⟩ := MetaTx.head_of_preimage (congrArg (· ++ []) h)
  obtain ⟨⟨hchain, hcontract, hnonce, -⟩, -⟩ := MetaTx.headFields_inj hhead
  obtain ⟨-, -, -, -, hsigner⟩ := MetaTx.tailFields_inj (MetaTx.tail_of_preimage h)
  exact ⟨hsigner, hnonce, hchain, hcontract⟩

/-- A payload that a run accepts was made for the engine and has a nonce that was not yet used
before the run. -/
theorem of_mem_accepted {tx : MetaTx.Signed} (h : tx ∈ e.accepted cs) :
    tx.digest = ⟨Blake3.hash (signedBytes tx)⟩ ∧ tx.terms.chainId = e.verifier.chainId ∧
      tx.terms.contract = e.verifier.identity ∧ e.nonce tx.terms.signer ≤ tx.terms.nonce := by
  obtain ⟨pre, step, relay, post, reply, rfl, hr⟩ := mem_accepted.mp h
  have hs := (submitted_of_ok hr).signed
  have g := grows_run e pre
  refine ⟨hs.authentic.digest.symm, hs.authentic.chain.trans g.chain,
    hs.authentic.contract.trans g.contract, ?_⟩
  rw [hs.nonce]
  exact g.nonce _

theorem acceptedAt_pairwise {p : MetaTx.Signed → MetaTx.Signed → Prop} :
    (e.acceptedAt c).Pairwise p := by
  unfold acceptedAt
  split
  · cases c.payload? with
    | none => exact .nil
    | some tx => exact List.pairwise_singleton ..
  · exact .nil

/-- The nonces of a signer's accepted payloads go up. -/
theorem accepted_pairwise (e : Engine) (cs : List Command) :
    (e.accepted cs).Pairwise fun a b =>
      a.terms.signer = b.terms.signer → a.terms.nonce < b.terms.nonce := by
  -- An accepted payload leaves the nonce above its own, and no later step takes it back.
  induction cs generalizing e with
  | nil => exact .nil
  | cons c cs ih =>
    refine List.pairwise_append.mpr ⟨acceptedAt_pairwise, ih _, ?_⟩
    intro a ha b hb hab
    obtain ⟨step, relay, reply, rfl, hr⟩ := mem_acceptedAt.mp ha
    have hlt := (submitted_of_ok hr).nonce_lt (.refl _)
    obtain ⟨-, -, -, hle⟩ := of_mem_accepted hb
    rw [← hab] at hle
    exact UInt64.lt_of_lt_of_le hlt hle

/-- Equal digests of accepted payloads come from equal bytes, unless the hash collides. -/
theorem signedBytes_eq_of_digest {inputs : List Bytes} (free : NoCollision inputs)
    {a b : MetaTx.Signed} (ha : signedBytes a ∈ inputs) (hb : signedBytes b ∈ inputs)
    (hda : a.digest = ⟨Blake3.hash (signedBytes a)⟩)
    (hdb : b.digest = ⟨Blake3.hash (signedBytes b)⟩) (h : a.digest = b.digest) :
    signedBytes a = signedBytes b := by
  rw [hda, hdb] at h
  exact free _ ha _ hb (Digest.mk.inj h)

theorem digests_nodup (free : NoCollision ((e.accepted cs).map signedBytes)) :
    ((e.accepted cs).map MetaTx.Signed.digest).Nodup := by
  rw [List.Nodup, List.pairwise_map]
  refine (accepted_pairwise e cs).imp_of_mem ?_
  intro a b ha hb hlt hd
  have heq := signedBytes_eq_of_digest free (List.mem_map_of_mem ha) (List.mem_map_of_mem hb)
    (of_mem_accepted ha).1 (of_mem_accepted hb).1 hd
  obtain ⟨hsigner, hnonce, -, -⟩ := signedBytes_inj heq
  exact UInt64.ne_of_lt (hlt hsigner) hnonce

theorem digests_apart
    (free : NoCollision ((e.accepted cs ++ e'.accepted ds).map signedBytes))
    (apart : e'.verifier.chainId ≠ e.verifier.chainId ∨ e'.verifier.identity ≠ e.verifier.identity)
    {a b : MetaTx.Signed} (ha : a ∈ e.accepted cs) (hb : b ∈ e'.accepted ds) :
    a.digest ≠ b.digest := by
  intro hd
  obtain ⟨hda, hca, hia, -⟩ := of_mem_accepted ha
  obtain ⟨hdb, hcb, hib, -⟩ := of_mem_accepted hb
  have heq := signedBytes_eq_of_digest free (List.mem_map_of_mem (List.mem_append_left _ ha))
    (List.mem_map_of_mem (List.mem_append_right _ hb)) hda hdb hd
  obtain ⟨-, -, hchain, hcontract⟩ := signedBytes_inj heq
  rcases apart with h | h
  · exact h (hcb.symm.trans (hchain.symm.trans hca))
  · exact h (hib.symm.trans (hcontract.symm.trans hia))

/-! ## Whole runs -/

/-- No payload counts twice along a run of a new engine, nor in a run of another one. -/
structure ReplaySafe (e : Engine) (cs : List Command) : Prop where
  /-- The nonce of a signer is the number of the signer's accepted payloads. -/
  counted (signer : Identity) :
    ((e.run cs).nonce signer).toNat = (noncesOf signer (e.accepted cs)).length
  /-- These carry the nonces 0, 1, 2, … in the order in which they are accepted. -/
  ordered (signer : Identity) :
    noncesOf signer (e.accepted cs) = List.range (noncesOf signer (e.accepted cs)).length
  /-- A nonce moves only in a step that accepts a payload of that signer, and then by one. -/
  moved (pre : List Command) (c : Command) (post : List Command) (signer : Identity) :
    cs = pre ++ c :: post → ((e.run pre).step c).1.nonce signer ≠ (e.run pre).nonce signer →
    ∃ tx, (e.run pre).acceptedAt c = [tx] ∧ tx.terms.signer = signer ∧
      tx.terms.nonce = (e.run pre).nonce signer ∧
      (((e.run pre).step c).1.nonce signer).toNat = ((e.run pre).nonce signer).toNat + 1
  /-- No two accepted payloads share signer and nonce. -/
  distinct : (e.accepted cs).Pairwise fun a b =>
    ¬ (a.terms.signer = b.terms.signer ∧ a.terms.nonce = b.terms.nonce)
  /-- No digest is accepted twice, whichever the entry points. -/
  digests : NoCollision ((e.accepted cs).map signedBytes) →
    ((e.accepted cs).map MetaTx.Signed.digest).Nodup
  /-- Nor is it accepted by an engine on another chain or with another identity. -/
  elsewhere (config : EngineConfig) (clock : UInt64) (sink : EventSink) (dispatcher : Dispatcher)
    (other : Engine) (ds : List Command) :
    create config clock sink dispatcher = .ok other →
    (other.chainId ≠ e.chainId ∨ other.identity ≠ e.identity) →
    NoCollision ((e.accepted cs ++ other.accepted ds).map signedBytes) →
    ∀ a ∈ e.accepted cs, ∀ b ∈ other.accepted ds, a.digest ≠ b.digest
  /-- Submitted again to the same entry point, an accepted payload is rejected as a replay. -/
  replayed (pre mid post : List Command) (step : MetaStep) (tx : MetaTx.Signed)
    (first relay : MetaTx.Relay) (reply : Reply) :
    cs = pre ++ step.submit tx first :: mid ++ post →
    ((e.run pre).step (step.submit tx first)).2 = .ok reply →
    let later := e.run (pre ++ step.submit tx first :: mid)
    later.clock ≤ tx.terms.deadline →
    (tx.terms.maxGasPrice = 0 ∨ relay.gasPrice ≤ tx.terms.maxGasPrice) →
    later.step (step.submit tx relay) =
      (later, .error (.nonceReplayed tx.terms.signer (later.nonce tx.terms.signer) tx.terms.nonce))

/-- As long as the numbers of the records do not run out, the runs of a new engine are replay safe.
-/
theorem run_replaySafe {config : EngineConfig} {clock : UInt64} {sink : EventSink}
    {dispatcher : Dispatcher} {e : Engine} (created : create config clock sink dispatcher = .ok e)
    (cs : List Command) (bounded : (e.run cs).ledger.next.toNat < UInt64.size - 1) :
    e.ReplaySafe cs := by
  have hnew := isNew_of_create created
  have hfits : (e.run cs).ledger.next.toNat + 1 < UInt64.size := by omega
  have hnumbered : e.ledger.Numbered := hnew.numbered []
  have hzero (signer : Identity) : (e.nonce signer).toNat = 0 := by rw [hnew.nonce]; rfl
  constructor
  case counted =>
    intro signer
    rw [(nonces_run hnumbered hfits signer).1, hzero, Nat.zero_add]
  case ordered =>
    intro signer
    rw [List.range_eq_range', ← hzero signer]
    exact (nonces_run hnumbered hfits signer).2
  case moved =>
    rintro pre c post signer rfl hne
    have hle : (e.run pre).ledger.next.toNat ≤ (e.run (pre ++ c :: post)).ledger.next.toNat := by
      rw [run_append]
      exact UInt64.le_iff_toNat_le.mp (grows_run _ _).next
    rcases verifier_step (hnew.numbered pre) (by omega) c with ⟨-, hv⟩ | ⟨tx, ha, hn, hf, hv⟩
    · exact absurd (by rw [Engine.nonce, hv]; rfl) hne
    · have hmoved := nonce_of_spend hv signer
      by_cases hs : signer = tx.terms.signer
      · subst hs
        rw [if_pos rfl] at hmoved
        exact ⟨tx, ha, rfl, hn, by rw [hmoved]; exact toNat_add_one hf⟩
      · rw [if_neg hs] at hmoved
        exact absurd hmoved hne
  case distinct =>
    refine (accepted_pairwise e cs).imp ?_
    rintro a b hlt ⟨hs, hn⟩
    exact UInt64.ne_of_lt (hlt hs) hn
  case digests => exact digests_nodup
  case elsewhere =>
    intro config' clock' sink' dispatcher' other ds hother hne free a ha b hb
    have hnew' := isNew_of_create hother
    refine digests_apart free ?_ ha hb
    rcases hne with h | h
    · exact .inl h
    · exact .inr (by rw [hnew'.verifier, hnew.verifier]; exact h)
  case replayed =>
    intro pre mid post step tx first relay reply _ accepted later deadline gas
    have hlater : later = ((e.run pre).step (step.submit tx first)).1.run mid := run_append
    have g : Grows ((e.run pre).step (step.submit tx first)).1 later := hlater ▸ grows_run _ mid
    exact step_replayed accepted g deadline gas

/-- The run of the sample accepts one payload, and then rejects it. -/
theorem sample_replayed : ∃ e, create Sample.config 100 (.memory []) .empty = .ok e ∧
    let later := e.run Sample.commands
    e.accepted Sample.commands = [Sample.payload] ∧ (later.nonce Sample.owner).toNat = 1 ∧
      later.step (MetaStep.approve.submit Sample.payload Sample.relay) =
        (later, .error (.nonceReplayed Sample.owner (later.nonce Sample.owner) 0)) := by
  obtain ⟨e, reply, created, accepted, -, hnext, hclock⟩ := Sample.exists_completed
  have hsafe := run_replaySafe created Sample.commands (by rw [hnext]; decide)
  have hall : e.accepted Sample.commands = [Sample.payload] := by
    have hnone : ∀ c ∈ Sample.restored, c.payload? = none := by decide +kernel
    rw [Sample.commands, accepted_append, accepted_of_none hnone, Engine.accepted,
      acceptedAt_of_ok accepted]
    rfl
  have hlater := hsafe.replayed Sample.restored [] [] .approve Sample.payload Sample.relay
    Sample.relay reply (List.append_nil _).symm accepted
  refine ⟨e, created, hall, ?_, hlater (hclock ▸ by decide) (.inl rfl)⟩
  rw [hsafe.counted, hall]
  decide +kernel

end Engine

end Countersign
