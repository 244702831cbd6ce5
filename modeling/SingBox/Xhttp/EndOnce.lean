import SingBox.Xhttp.PacketConn
import SingBox.Xhttp.SplitConn

/-!
# Split and packet connections end exactly once

`EndsOnce` collects what that means for a program of goroutines; the abstract view of the connection is
that of `SingBox.Lib.OneShot`.
-/

namespace SingBox.Xhttp

open SingBox.Lib List Option

/-- In every interleaving of calls of the program `P`, started in `s₀`, the connection ends once;
`core` is what a state means as a one-shot object, and `read` is the call of `Read`. -/
structure EndsOnce {σ ι κ : Type} (P : Program σ ι ConnInput κ) (core : σ → OneShot Body ConnError ReadResult)
    (read : κ) (s₀ : σ) : Prop where
  /-- The channel `created` is closed at most once. -/
  created : ∀ es, VisitAll P.step (fun s => (core s.shared).created ≤ 1) (.init s₀) es
  /-- The first terminal error is never replaced. -/
  kept : ∀ es es' s s' e, runOf P.step (.init s₀) es = some s → runOf P.step s es' = some s' →
    (core s.shared).terminal = some e → (core s'.shared).terminal = some e
  /-- A `Read` that was started after the terminal error was recorded, when it returned, returned it. -/
  reads : ∀ es, VisitAll P.step (fun s => ∀ e r, (some e, r) ∈ (core s.shared).reads → r = .ret 0 (some e))
    (.init s₀) es
  /-- Such a `Read` is never stuck: left alone, it returns. -/
  readReturns : ∀ es s e x, runOf P.step (.init s₀) es = some s → (core s.shared).terminal = some e →
    ∃ k s', runOf P.step s (.call read :: List.replicate k (.sched s.threads.length x)) = some s' ∧
      (core s'.shared).reads = (some e, .ret 0 (some e)) :: (core s.shared).reads
  /-- The usage is released at most once, and only when the connection is terminal. -/
  released : ∀ es, VisitAll P.step (fun s => (core s.shared).released ≤ 1 ∧
    ((core s.shared).released = 1 → (core s.shared).terminal.isSome)) (.init s₀) es
  /-- When all calls have returned on a terminal connection, the usage is released and every body passed
  to `setupReader` is closed. -/
  settled : ∀ es, VisitAll P.step (fun s => s.Idle → (core s.shared).terminal.isSome →
    (core s.shared).released = 1 ∧ ∀ b ∈ (core s.shared).offered, b ∈ (core s.shared).closed) (.init s₀) es

/-- A program that the one-shot machine simulates ends once, if its reads cannot get stuck. -/
lemma EndsOnce.of_simulates {σ ι κ : Type} {P : Program σ ι ConnInput κ}
    {core : σ → OneShot Body ConnError ReadResult} {duty : ι → Multiset (Duty Body ConnError)} {read : κ} {s₀ : σ}
    (hsim : P.Simulates core duty terminalResult) (h₀ : core s₀ = {})
    (hread : ∀ s e x, OneShot.Inv terminalResult (core s.shared, duties duty s.pending) →
      (core s.shared).terminal = some e →
      ∃ k s', runOf P.step s (.call read :: replicate k (.sched s.threads.length x)) = some s' ∧
        (core s'.shared).reads = (some e, .ret 0 (some e)) :: (core s.shared).reads) :
    EndsOnce P core read s₀ := by
  have hinit : OneShot.Inv terminalResult
      (core (Config.init s₀ : Config σ ι).shared, duties duty (Config.init s₀ : Config σ ι).pending) := by
    rw [Config.shared_init, Config.pending_init, h₀, duties_zero]
    exact OneShot.inv_init
  have hall := fun es => hsim.visitAll es hinit
  refine ⟨fun es => (hall es).imp fun s hs => ?_, fun es es' s s' e hes hes' he => ?_,
    fun es => (hall es).imp fun s hs => hs.reads, fun es s e x hes he => ?_,
    fun es => (hall es).imp fun s hs => ⟨hs.released, fun h => hs.release.2 (.inl h)⟩,
    fun es => (hall es).imp fun s hs hidle ht => ?_⟩
  · rw [hs.created]
    split <;> omega
  · exact hsim.terminal es' hes' ((hall es).last hes) he
  · exact hread s e x ((hall es).last hes) he
  · rw [hidle.pending, duties_zero] at hs
    exact hs.settled ht

lemma split_read_returns (s : Config SplitConn SplitOp) (e : ConnError) (x : ConnInput)
    (hinv : OneShot.Inv terminalResult (s.shared.oneShot, duties SplitOp.duty s.pending))
    (he : s.shared.oneShot.terminal = some e) :
    ∃ k s', runOf splitProgram.step s (.call .read :: replicate k (.sched s.threads.length x)) = some s' ∧
      s'.shared.oneShot.reads = (some e, .ret 0 (some e)) :: s.shared.oneShot.reads := by
  have hcr : 0 < s.shared.created := hinv.created_pos (isSome_iff_exists.2 ⟨e, he⟩)
  replace he : s.shared.terminalErr = some e := he
  -- whichever branch the `select` takes, the next section finds the error
  obtain ⟨o, hselect, hend⟩ : ∃ o, splitProgram.exec (.readSelect (some e)) x s.shared = some (s.shared, [o]) ∧
      splitProgram.exec o x s.shared = some (s.shared.returned (some e) (.ret 0 (some e)), []) := by
    by_cases hp : s.shared.readDeadline.expired → x.pick
    · exact ⟨.readLock (some e), by simp only [splitProgram, SplitOp.exec, if_pos (And.intro hcr hp)],
        by simp [splitProgram, SplitOp.exec, he]⟩
    · refine ⟨.readDead (some e), ?_, by simp [splitProgram, SplitOp.exec, he]⟩
      have hexp : s.shared.readDeadline.expired = true := by
        by_contra hn
        exact hp fun h => absurd h hn
      simp only [splitProgram, SplitOp.exec, if_neg (not_and_of_not_right _ hp), if_pos hexp]
  refine ⟨2, ⟨s.shared.returned (some e) (.ret 0 (some e)), s.threads ++ [[]]⟩, ?_, rfl⟩
  have hcall : splitProgram.step s (.call .read) = some ⟨s.shared, s.threads ++ [[.readSelect (some e)]]⟩ := by
    rw [Program.step_call, ← he]
    rfl
  simp only [replicate, runOf, hcall, bind_some, Program.step_last hselect, append_nil, Program.step_last hend]

lemma packet_read_returns (cfg : PacketConfig) (s : Config PacketConn PacketOp) (e : ConnError) (x : ConnInput)
    (hinv : OneShot.Inv terminalResult (s.shared.oneShot, duties PacketOp.duty s.pending))
    (he : s.shared.oneShot.terminal = some e) :
    ∃ k s', runOf (packetProgram cfg).step s (.call .read :: replicate k (.sched s.threads.length x)) =
        some s' ∧ s'.shared.oneShot.reads = (some e, .ret 0 (some e)) :: s.shared.oneShot.reads := by
  have hcr : 0 < s.shared.created := hinv.created_pos (isSome_iff_exists.2 ⟨e, he⟩)
  replace he : s.shared.terminalErr = some e := he
  have hcall : (packetProgram cfg).step s (.call .read) =
      some ⟨s.shared, s.threads ++ [[.readSelect (some e)]]⟩ := by
    rw [Program.step_call, ← he]
    rfl
  have hend : (packetProgram cfg).exec (.readLock (some e)) x s.shared =
      some (s.shared.returned (some e) (.ret 0 (some e)), []) := by
    simp [packetProgram, PacketOp.exec, he]
  by_cases hp : s.shared.readDeadline.expired → x.pick
  · have hselect : (packetProgram cfg).exec (.readSelect (some e)) x s.shared =
        some (s.shared, [.readLock (some e)]) := by
      simp only [packetProgram, PacketOp.exec, if_pos (And.intro hcr hp)]
    refine ⟨2, ⟨s.shared.returned (some e) (.ret 0 (some e)), s.threads ++ [[]]⟩, ?_, rfl⟩
    simp only [replicate, runOf, hcall, bind_some, Program.step_last hselect, append_nil, Program.step_last hend]
  · -- the deadline's branch looks at `created` again and goes on to the lock
    have hexp : s.shared.readDeadline.expired = true := by
      by_contra hn
      exact hp fun h => absurd h hn
    have hselect : (packetProgram cfg).exec (.readSelect (some e)) x s.shared =
        some (s.shared, [.readDead (some e)]) := by
      simp only [packetProgram, PacketOp.exec, if_neg (not_and_of_not_right _ hp), if_pos hexp]
    have hdead : (packetProgram cfg).exec (.readDead (some e)) x s.shared =
        some (s.shared, [.readLock (some e)]) := by
      simp only [packetProgram, PacketOp.exec, if_pos hcr]
    refine ⟨3, ⟨s.shared.returned (some e) (.ret 0 (some e)), s.threads ++ [[]]⟩, ?_, rfl⟩
    simp only [replicate, runOf, hcall, bind_some, Program.step_last hselect, append_nil,
      Program.step_last hdead, Program.step_last hend]

/-- **Stream-up and packet-up connections end exactly once**, for every interleaving of any number of calls and of
deadline timers. -/
theorem connections_end_once : EndsOnce splitProgram SplitConn.oneShot .read {} ∧
    ∀ cfg, EndsOnce (packetProgram cfg) PacketConn.oneShot .read {} :=
  ⟨.of_simulates splitConn_sim rfl split_read_returns,
    fun cfg => .of_simulates (packetConn_sim cfg) rfl (packet_read_returns cfg)⟩

end SingBox.Xhttp
