/-
The loop of `repush` that pushes the manifest.

Its one map `by_peer` is what the loop of the chunks has two for: an archive is in it as
long as its answer is awaited.
-/
import Snip.Proofs.PushTargets
import Snip.Proofs.RepushRound

namespace Snip

open Attempts

namespace RepushManifests

/-- The peer of an archive. -/
def key? (peers : MapPeerResolver) (a : Addr) : Option PeerId := peers.resolve a

theorem key?_inj {peers : MapPeerResolver} (a b : Addr) (peer : PeerId)
    (h : key? peers a = some peer) (k : key? peers b = some peer) : a = b := by
  have ha := MapPeerResolver.lookup_of_resolve h
  have hb := MapPeerResolver.lookup_of_resolve k
  exact Option.some.inj (ha.symm.trans hb)

/-! ### What an entry says about one push -/

def sign (job : RepushJob) (peer : PeerId) : RepushEntry PeerId → Option (Sign Str)
  | .sent k ok => if k = peer then some (.sent ok) else none
  | .read (.shardReceivedV2 peerId (.manifestPushAck ackedRoot error) _) =>
      if ackedRoot = job.merkleRoot ∧ peerId = peer then some (.answered error) else none
  | .read _ | .deadline => none

/-- The answer of a peer. -/
def ackOf (merkleRoot : Hash) (peer : PeerId) (error : Option Str) (origin : OutboundOrigin) :
    RepushEntry PeerId :=
  .read (.shardReceivedV2 peer (.manifestPushAck merkleRoot error) origin)

theorem sign_sent (job : RepushJob) (peer k : PeerId) (ok : Bool) :
    sign job peer (.sent k ok) = Books.signFor k (.sent ok) peer := rfl

theorem sign_manifestPushAck (job : RepushJob) (peer peerId : PeerId) (ackedRoot : Hash)
    (error : Option Str) (origin : OutboundOrigin) :
    sign job peer (.read (.shardReceivedV2 peerId (.manifestPushAck ackedRoot error) origin))
      = if ackedRoot = job.merkleRoot ∧ peerId = peer then some (.answered error) else none := rfl

theorem sign_ackOf (job : RepushJob) (peer k : PeerId) (error : Option Str)
    (origin : OutboundOrigin) :
    sign job peer (ackOf job.merkleRoot k error origin)
      = Books.signFor k (.answered error) peer := by
  unfold ackOf Books.signFor
  rw [sign_manifestPushAck]
  simp

/-- An event says nothing about a push, or it is the answer to it. -/
theorem sign_read (job : RepushJob) (peer : PeerId) (event : SumNetEvent) :
    sign job peer (.read event) = none ∨
      ∃ error origin, .read event = ackOf job.merkleRoot peer error origin := by
  cases event with
  | shardReceivedV2 peerId response origin =>
      cases response with
      | manifestPushAck ackedRoot error =>
          rw [sign_manifestPushAck]
          by_cases hmine : ackedRoot = job.merkleRoot ∧ peerId = peer
          · obtain ⟨rfl, rfl⟩ := hmine
            exact Or.inr ⟨error, origin, rfl⟩
          · rw [if_neg hmine]
            exact Or.inl rfl
      | data body => exact Or.inl rfl
      | pushAck root chunkIndex error => exact Or.inl rfl
      | manifestData root blob error => exact Or.inl rfl
  | peerDiscovered peerId => exact Or.inl rfl
  | peerIdentified peerId address => exact Or.inl rfl
  | peerDisconnected peerId => exact Or.inl rfl
  | shardReceived peerId response origin => exact Or.inl rfl
  | shardRequestFailed peerId error origin => exact Or.inl rfl
  | other => exact Or.inl rfl

theorem signs (job : RepushJob) : Signs (sign job) (ackOf job.merkleRoot) :=
  .of_read (fun key k ok => sign_sent job key k ok) (fun key => rfl)
    (fun key error origin => by rw [sign_ackOf, Books.signFor_self]) (sign_read job)

/-! ### The books -/

def books (s : RepushManifests) : Books Addr PeerId where
  rest := s.phase.rest
  resending := s.phase.resending?
  results := s.results.lookup
  awaited := s.byPeer.lookup
  attempts := s.attempts.lookup

def Calm (s : RepushManifests) : Prop := s.phase ≠ .panicked

theorem books_loopHead (s : RepushManifests) :
    s.loopHead.books = s.books.leave [] ∧ Calm s.loopHead := by
  unfold loopHead
  by_cases hempty : s.byPeer.keys = []
  · rw [if_pos hempty]
    exact ⟨rfl, nofun⟩
  · rw [if_neg hempty]
    exact ⟨rfl, nofun⟩

section

variable {job : RepushJob} {archives : List Addr} {s s' : RepushManifests}

theorem books_sendRest (s : RepushManifests) (rest : List Addr) :
    ∃ rest', Books.Leaves (key? job.peers) rest rest' ∧
      (sendRest job rest s).books = s.books.leave rest' ∧ Calm (sendRest job rest s) := by
  induction rest with
  | nil => exact ⟨[], ⟨List.Sublist.refl _, nofun⟩, books_loopHead s⟩
  | cons a rest ih =>
      unfold sendRest
      cases hpeer : job.peers.resolve a with
      | none =>
          obtain ⟨rest', hleaves, hbooks⟩ := ih
          refine ⟨rest', ⟨hleaves.sublist.cons _, ?_⟩, hbooks⟩
          intro b hb hsome
          rcases List.mem_cons.mp hb with rfl | hb
          · simp [key?, hpeer] at hsome
          · exact hleaves.keeps b hb hsome
      | some peer => exact ⟨a :: rest, ⟨List.Sublist.refl _, fun b hb _ => hb⟩, rfl, nofun⟩

/-! ### What an entry does -/

/-- The books after the first push to an archive. -/
theorem books_onFirst (s : RepushManifests) (a : Addr) (peer : PeerId) (ok : Bool)
    (rest : List Addr) :
    (s.onFirst a peer ok).books.leave rest =
      { rest := rest
        resending := none
        results := Function.update s.books.results a (some .noAnswer)
        awaited := if ok then Function.update s.books.awaited peer (some a) else s.books.awaited
        attempts := if ok then Function.update s.books.attempts peer (some 1)
          else s.books.attempts } := by
  have hresults : (s.onFirst a peer ok).books.results
      = Function.update s.books.results a (some .noAnswer) := by
    cases ok with
    | true => exact Maps.lookup_insert_eq_update s.results a .noAnswer
    | false => exact Maps.lookup_insert_eq_update s.results a .noAnswer
  unfold Books.leave
  rw [hresults]
  cases ok with
  | true =>
      have hawaited : (s.onFirst a peer true).books.awaited
          = Function.update s.books.awaited peer (some a) :=
        Maps.lookup_insert_eq_update s.byPeer peer a
      have hattempts : (s.onFirst a peer true).books.attempts
          = Function.update s.books.attempts peer (some 1) :=
        Maps.lookup_insert_eq_update s.attempts peer 1
      rw [hawaited, hattempts]
      rfl
  | false => rfl

/-- The books after a push has its result. -/
theorem books_settle (hrest : s.books.rest = []) (peer : PeerId) (archive : Addr)
    (result : RepushResult) (hresults : s'.results = s.results.insert archive result)
    (hbyPeer : s'.byPeer = s.byPeer.erase peer) (hattempts : s'.books.attempts = s.books.attempts) :
    s'.books.leave [] = s.books.settle peer archive result := by
  have hresults' : s'.books.results = Function.update s.books.results archive (some result) := by
    unfold books
    rw [hresults]
    exact Maps.lookup_insert_eq_update s.results archive result
  have hawaited : s'.books.awaited = Function.update s.books.awaited peer none := by
    unfold books
    rw [hbyPeer]
    exact Maps.lookup_erase_eq_update s.byPeer peer
  unfold Books.leave Books.settle
  rw [hresults', hawaited, hattempts, hrest]

/-- The books after a push has been counted. -/
theorem books_count (hrest : s.books.rest = []) (peer : PeerId) (n : Nat) :
    (books { s with attempts := s.attempts.insert peer n }).leave [] = s.books.count peer n := by
  have hattempts : (books { s with attempts := s.attempts.insert peer n }).attempts
      = Function.update s.books.attempts peer (some n) :=
    Maps.lookup_insert_eq_update s.attempts peer n
  unfold Books.leave Books.count
  rw [hattempts, hrest]
  rfl

theorem waiting_books (hphase : s.phase = .waiting) :
    s.books.rest = [] ∧ s.books.resending = none := by
  unfold books
  rw [hphase]
  exact ⟨rfl, rfl⟩

theorem turned_of_first {a : Addr} {rest : List Addr} {peer : PeerId}
    (hphase : s.phase = .wave (a :: rest)) (hpeer : key? job.peers a = some peer) (ok : Bool) :
    s.books.Turned (key? job.peers) job.pushRetries (Books.signFor peer (.sent ok))
        (sendRest job rest (s.onFirst a peer ok)).books ∧
      Calm (sendRest job rest (s.onFirst a peer ok)) := by
  have hbooks : s.books.rest = a :: rest ∧ s.books.resending = none := by
    unfold books
    rw [hphase]
    exact ⟨rfl, rfl⟩
  obtain ⟨rest', hleaves, hafter, hcalm⟩ := @books_sendRest job (s.onFirst a peer ok) rest
  rw [hafter, books_onFirst]
  exact ⟨.first ok hbooks.1 hbooks.2 hpeer hleaves, hcalm⟩

theorem turned_of_again {peer : PeerId} {archive : Addr} {n : Nat} {e : Str}
    (hphase : s.phase = .resending peer archive n e) (ok : Bool) :
    s.books.Turned (key? job.peers) job.pushRetries (Books.signFor peer (.sent ok))
        (s.onAgain peer archive n e ok).loopHead.books ∧
      Calm (s.onAgain peer archive n e ok).loopHead := by
  have hrest : s.books.rest = [] := by
    unfold books
    rw [hphase]
    rfl
  have hresending : s.books.resending = some (peer, archive, n, e) := by
    unfold books
    rw [hphase]
    rfl
  obtain ⟨hhead, hcalm⟩ := books_loopHead (s.onAgain peer archive n e ok)
  have hturned : s.books.Turned (key? job.peers) job.pushRetries
      (Books.signFor peer (.sent ok)) _ := .again ok hrest hresending
  rw [hhead]
  cases ok with
  | true =>
      have hafter : (s.onAgain peer archive n e true).books.leave [] = s.books.count peer (n + 1) :=
        books_count hrest peer (n + 1)
      rw [hafter]
      exact ⟨hturned, hcalm⟩
  | false =>
      have hafter : (s.onAgain peer archive n e false).books.leave []
          = s.books.settle peer archive (.refused e) :=
        books_settle hrest peer archive (.refused e) rfl rfl rfl
      rw [hafter]
      exact ⟨hturned, hcalm⟩

theorem turned_of_answer (hb : s.books.Sound (key? job.peers) archives)
    (hphase : s.phase = .waiting) {peer : PeerId} {archive : Addr} (hawaited : s.byPeer.lookup peer = some archive)
    (error : Option Str) :
    s.books.Turned (key? job.peers) job.pushRetries (Books.signFor peer (.answered error))
        (onAnswer job s peer archive error).books ∧ Calm (onAnswer job s peer archive error) := by
  obtain ⟨hrest, hresending⟩ := waiting_books hphase
  obtain ⟨-, -, -, n, hn⟩ := hb.awaited peer archive hawaited
  have hsettle : ∀ result attempts, (fun k => attempts.lookup k) = s.books.attempts →
      (books { s with
        results := s.results.insert archive result
        byPeer := s.byPeer.erase peer
        attempts := attempts }).leave [] = s.books.settle peer archive result :=
    fun result attempts hattempts => books_settle hrest peer archive result rfl rfl hattempts
  cases error with
  | none =>
      obtain ⟨hhead, hcalm⟩ := books_loopHead { s with
        results := s.results.insert archive .acknowledged
        byPeer := s.byPeer.erase peer }
      refine ⟨?_, hcalm⟩
      show Books.Turned _ _ _ _ (loopHead _).books
      rw [hhead, hsettle .acknowledged s.attempts rfl]
      exact .accepted hrest hresending hawaited
  | some e =>
      have hlookup : s.attempts.lookup peer = some n := hn
      have hattempts : (fun k => (s.attempts.insert peer n).lookup k) = s.books.attempts := by
        rw [Maps.lookup_insert_eq_update, ← hlookup, Function.update_eq_self]
        rfl
      unfold onAnswer
      simp only [hlookup, Option.getD_some]
      by_cases hmore : n ≤ job.pushRetries
      · rw [if_pos hmore]
        have hafter : (books { s with
            attempts := s.attempts.insert peer n
            phase := .resending peer archive n e }) = s.books.resend peer archive n e := by
          unfold Books.resend
          rw [← hattempts, hrest]
          rfl
        rw [hafter]
        exact ⟨.retried hrest hresending hawaited hn hmore, nofun⟩
      · rw [if_neg hmore]
        obtain ⟨hhead, hcalm⟩ := books_loopHead { s with
          results := s.results.insert archive (.refused e)
          attempts := s.attempts.insert peer n
          byPeer := s.byPeer.erase peer }
        rw [hhead, hsettle (.refused e) (s.attempts.insert peer n) hattempts]
        exact ⟨.refused hrest hresending hawaited hn hmore, hcalm⟩

theorem turned_of_event (hb : s.books.Sound (key? job.peers) archives) (hphase : s.phase = .waiting)
    (event : SumNetEvent) :
    s.books.Turned (key? job.peers) job.pushRetries (fun peer => sign job peer (.read event))
        (onEvent job s event).books ∧ Calm (onEvent job s event) := by
  obtain ⟨hrest, hresending⟩ := waiting_books hphase
  obtain ⟨hhead, hcalm⟩ := books_loopHead s
  have hsame : s.books.leave [] = s.books := by
    unfold Books.leave
    rw [← hrest, ← hresending]
  have hignored : (∀ peer, sign job peer (.read event) = none ∨ s.books.awaited peer = none ∧
        ∃ error, sign job peer (.read event) = some (.answered error)) →
      s.books.Turned (key? job.peers) job.pushRetries (fun peer => sign job peer (.read event))
        s.loopHead.books ∧ Calm s.loopHead := by
    intro h
    rw [hhead, hsame]
    exact ⟨.ignored hrest hresending h, hcalm⟩
  cases event with
  | shardReceivedV2 peerId response origin =>
      cases response with
      | manifestPushAck ackedRoot error =>
          unfold onEvent
          dsimp only
          by_cases hroot : ackedRoot ≠ job.merkleRoot
          · rw [if_pos hroot]
            refine hignored fun peer => Or.inl ?_
            rw [sign_manifestPushAck, if_neg fun h => hroot h.1]
          · rw [if_neg hroot]
            rw [not_not] at hroot
            subst hroot
            have hsign : (fun peer => sign job peer (ackOf job.merkleRoot peerId error origin))
                = Books.signFor peerId (.answered error) := by
              funext peer
              exact sign_ackOf job peer peerId error origin
            cases hawaited : s.byPeer.lookup peerId with
            | none =>
                refine hignored ?_
                intro peer
                rw [sign_manifestPushAck]
                by_cases hmine : job.merkleRoot = job.merkleRoot ∧ peerId = peer
                · rw [if_pos hmine, ← hmine.2]
                  exact Or.inr ⟨hawaited, error, rfl⟩
                · rw [if_neg hmine]
                  exact Or.inl rfl
            | some archive =>
                have hanswer := turned_of_answer hb hphase hawaited error
                rw [← hsign] at hanswer
                exact hanswer
      | data body => exact hignored fun _ => Or.inl rfl
      | pushAck root chunkIndex error => exact hignored fun _ => Or.inl rfl
      | manifestData root blob error => exact hignored fun _ => Or.inl rfl
  | peerDiscovered peerId => exact hignored fun _ => Or.inl rfl
  | peerIdentified peerId address => exact hignored fun _ => Or.inl rfl
  | peerDisconnected peerId => exact hignored fun _ => Or.inl rfl
  | shardReceived peerId response origin => exact hignored fun _ => Or.inl rfl
  | shardRequestFailed peerId error origin => exact hignored fun _ => Or.inl rfl
  | other => exact hignored fun _ => Or.inl rfl

/-- The step lemma. -/
theorem keepsBooks (job : RepushJob) (archives : List Addr) :
    KeepsBooks (key? job.peers) job.pushRetries archives (sign job) (turn job) books Calm where
  inj := key?_inj
  step := by
    intro s entry s' hb hcalm h
    unfold turn at h
    cases entry with
    | sent peer ok =>
        cases hphase : s.phase with
        | wave rest =>
            cases rest with
            | nil => simp [hphase] at h
            | cons a rest =>
                simp only [hphase] at h
                by_cases hpeer : job.peers.resolve a = some peer
                · rw [if_pos hpeer] at h
                  obtain rfl := Option.some.inj h
                  exact turned_of_first hphase hpeer ok
                · rw [if_neg hpeer] at h
                  cases h
        | resending k archive n e =>
            simp only [hphase] at h
            by_cases hpeer : peer = k
            · subst hpeer
              rw [if_pos rfl] at h
              obtain rfl := Option.some.inj h
              exact turned_of_again hphase ok
            · rw [if_neg hpeer] at h
              cases h
        | waiting => simp [hphase] at h
        | done => simp [hphase] at h
        | panicked => simp [hphase] at h
    | read event =>
        cases hphase : s.phase with
        | waiting =>
            simp only [hphase] at h
            obtain rfl := Option.some.inj h
            exact turned_of_event hb hphase event
        | wave rest => simp [hphase] at h
        | resending k archive n e => simp [hphase] at h
        | done => simp [hphase] at h
        | panicked => simp [hphase] at h
    | deadline =>
        cases hphase : s.phase with
        | waiting =>
            simp only [hphase] at h
            obtain rfl := Option.some.inj h
            obtain ⟨hrest, hresending⟩ := waiting_books hphase
            have hsame : books { s with phase := .done } = s.books := by
              unfold books
              rw [hphase]
              rfl
            rw [hsame]
            exact ⟨.ignored hrest hresending fun _ => Or.inl rfl, nofun⟩
        | wave rest => simp [hphase] at h
        | resending k archive n e => simp [hphase] at h
        | done => simp [hphase] at h
        | panicked => simp [hphase] at h

/-! ### Runs of the loop -/

theorem start_idle (job : RepushJob) (archives : List Addr) :
    (start job archives).books.Idle (key? job.peers) archives ∧ Calm (start job archives) := by
  obtain ⟨rest, hleaves, hbooks, hcalm⟩ := @books_sendRest job (idle archives) archives
  have hresults : ∀ a ∈ archives, (idle archives).books.results a = some .unreachable := by
    intro a ha
    show (idle archives).results.lookup a = some .unreachable
    unfold idle
    rw [Maps.lookup_const, if_pos ha]
  have hothers : ∀ a, a ∉ archives → (idle archives).books.results a = none := by
    intro a ha
    show (idle archives).results.lookup a = none
    unfold idle
    rw [Maps.lookup_const, if_neg ha]
  unfold start
  refine ⟨?_, hcalm⟩
  rw [hbooks]
  exact ⟨hleaves, rfl, hresults, hothers, fun peer => rfl⟩

/-- The loop does not panic, and what it leaves behind is exact. -/
theorem repushManifests_spec (job : RepushJob) (archives : Finset Addr)
    (entries : List (RepushEntry PeerId)) :
    job.repushManifests archives entries = .error .running ∨
      ∃ results, job.repushManifests archives entries = .ok results ∧
        Ends (key? job.peers) job.pushRetries (ackOf job.merkleRoot) (archives.sort (· ≤ ·)) entries
          results.lookup := by
  obtain ⟨hidle, hcalm⟩ := start_idle job (archives.sort (· ≤ ·))
  have hkeeps := keepsBooks job (archives.sort (· ≤ ·))
  have hnodup := Finset.sort_nodup archives (· ≤ ·)
  unfold RepushJob.repushManifests
  cases hrun : entries.foldlM (turn job) (start job (archives.sort (· ≤ ·))) with
  | none => exact Or.inl rfl
  | some s =>
      dsimp only
      cases hphase : s.phase with
      | wave rest => exact Or.inl rfl
      | waiting => exact Or.inl rfl
      | resending key archive n e => exact Or.inl rfl
      | panicked =>
          obtain ⟨hcalm', -, -⟩ := hkeeps.run hidle hnodup hcalm entries s hrun
          exact absurd hphase hcalm'
      | done =>
          have hrest : s.books.rest = [] := by
            unfold books
            rw [hphase]
            rfl
          obtain ⟨-, hends⟩ := hkeeps.ends (signs job) hidle hnodup hcalm hrun hrest
          exact Or.inr ⟨s.results, rfl, hends⟩

end

end RepushManifests

end Snip
