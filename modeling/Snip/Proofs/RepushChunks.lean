/-
The loop of `repush` that pushes the chunks.

A peer stands for one archive, so a key belongs to one target.  What the loop looks up
without a test is there: an answer is only awaited under a key on record, and every target
has its request.
-/
import Snip.Proofs.PushTargets
import Snip.Proofs.RepushRound

namespace Snip

open Attempts

namespace RepushChunks

/-- The key of a target, if it has a peer. -/
def key? (peers : MapPeerResolver) (t : Nat × Addr) : Option (Nat × PeerId) :=
  (peers.resolve t.2).map fun peer => (t.1, peer)

theorem key?_eq_some {peers : MapPeerResolver} {t : Nat × Addr} {key : Nat × PeerId} :
    key? peers t = some key ↔ t.1 = key.1 ∧ peers.resolve t.2 = some key.2 := by
  unfold key?
  rw [Option.map_eq_some_iff]
  constructor
  · rintro ⟨peer, hpeer, rfl⟩
    exact ⟨rfl, hpeer⟩
  · rintro ⟨hindex, hpeer⟩
    exact ⟨key.2, hpeer, Prod.ext hindex rfl⟩

theorem key?_inj {peers : MapPeerResolver} (t u : Nat × Addr) (key : Nat × PeerId)
    (h : key? peers t = some key) (k : key? peers u = some key) : t = u := by
  obtain ⟨hindex, hpeer⟩ := key?_eq_some.mp h
  obtain ⟨hindex', hpeer'⟩ := key?_eq_some.mp k
  have ht := MapPeerResolver.lookup_of_resolve hpeer
  have hu := MapPeerResolver.lookup_of_resolve hpeer'
  exact Prod.ext (hindex.trans hindex'.symm) (Option.some.inj (ht.symm.trans hu))

/-! ### What an entry says about one push -/

def sign (job : RepushJob) (key : Nat × PeerId) : RepushEntry (Nat × PeerId) → Option (Sign Str)
  | .sent k ok => if k = key then some (.sent ok) else none
  | .read (.shardReceivedV2 peerId (.pushAck ackedRoot chunkIndex error) _) =>
      if ackedRoot = job.merkleRoot ∧ (chunkIndex, peerId) = key then some (.answered error)
      else none
  | .read _ | .deadline => none

/-- The answer of the peer of a key. -/
def ackOf (merkleRoot : Hash) (key : Nat × PeerId) (error : Option Str)
    (origin : OutboundOrigin) : RepushEntry (Nat × PeerId) :=
  .read (.shardReceivedV2 key.2 (.pushAck merkleRoot key.1 error) origin)

theorem sign_sent (job : RepushJob) (key k : Nat × PeerId) (ok : Bool) :
    sign job key (.sent k ok) = Books.signFor k (.sent ok) key := rfl

theorem sign_pushAck (job : RepushJob) (key : Nat × PeerId) (peerId : PeerId) (ackedRoot : Hash)
    (chunkIndex : Nat) (error : Option Str) (origin : OutboundOrigin) :
    sign job key (.read (.shardReceivedV2 peerId (.pushAck ackedRoot chunkIndex error) origin))
      = if ackedRoot = job.merkleRoot ∧ (chunkIndex, peerId) = key then some (.answered error)
        else none := rfl

theorem sign_ackOf (job : RepushJob) (key k : Nat × PeerId) (error : Option Str)
    (origin : OutboundOrigin) :
    sign job key (ackOf job.merkleRoot k error origin) = Books.signFor k (.answered error) key := by
  unfold ackOf Books.signFor
  rw [sign_pushAck]
  simp

/-- An event says nothing about a push, or it is the answer to it. -/
theorem sign_read (job : RepushJob) (key : Nat × PeerId) (event : SumNetEvent) :
    sign job key (.read event) = none ∨
      ∃ error origin, .read event = ackOf job.merkleRoot key error origin := by
  cases event with
  | shardReceivedV2 peerId response origin =>
      cases response with
      | pushAck ackedRoot chunkIndex error =>
          rw [sign_pushAck]
          by_cases hmine : ackedRoot = job.merkleRoot ∧ (chunkIndex, peerId) = key
          · obtain ⟨rfl, rfl⟩ := hmine
            exact Or.inr ⟨error, origin, rfl⟩
          · rw [if_neg hmine]
            exact Or.inl rfl
      | data body => exact Or.inl rfl
      | manifestPushAck root error => exact Or.inl rfl
      | manifestData root blob error => exact Or.inl rfl
  | peerDiscovered peerId => exact Or.inl rfl
  | peerIdentified peerId address => exact Or.inl rfl
  | peerDisconnected peerId => exact Or.inl rfl
  | shardReceived peerId response origin => exact Or.inl rfl
  | shardRequestFailed peerId error origin => exact Or.inl rfl
  | other => exact Or.inl rfl

theorem signs (job : RepushJob) : Signs (sign job) (ackOf job.merkleRoot) :=
  .of_read (fun key k ok => sign_sent job key k ok) (fun key => rfl)
    (fun key error origin => by rw [sign_ackOf, Books.signFor_self]) (sign_read job)

/-! ### The books -/

def books (s : RepushChunks) : Books (Nat × Addr) (Nat × PeerId) where
  rest := s.phase.rest
  resending := s.phase.resending?.map fun (key, archive, n, e) => (key, (key.1, archive), n, e)
  results := s.results.lookup
  awaited := fun key =>
    if key ∈ s.awaiting then (s.byKey.lookup key).map fun archive => (key.1, archive) else none
  attempts := s.attempts.lookup

/-- No lookup has failed, and none of the next one will. -/
structure Calm (s : RepushChunks) : Prop where
  phase : s.phase ≠ .panicked
  byKey : ∀ key ∈ s.awaiting, ∃ archive, s.byKey.lookup key = some archive

theorem Calm.awaiting {s : RepushChunks} (h : Calm s) {key : Nat × PeerId}
    (hnone : s.books.awaited key = none) : key ∉ s.awaiting := by
  intro hkey
  obtain ⟨archive, harchive⟩ := h.byKey key hkey
  unfold books at hnone
  simp [hkey, harchive] at hnone

theorem awaited_eq_some {s : RepushChunks} {key : Nat × PeerId} {archive : Addr}
    (hkey : key ∈ s.awaiting) (harchive : s.byKey.lookup key = some archive) :
    s.books.awaited key = some (key.1, archive) := by
  unfold books
  simp [hkey, harchive]

/-- Only the phase is another, and no push is being sent again. -/
structure Resumes (s : RepushChunks) (rest : List (Nat × Addr)) (s' : RepushChunks) : Prop where
  books : s'.books = s.books.leave rest
  phase : s'.phase ≠ .panicked
  byKey : s'.byKey = s.byKey
  awaiting : s'.awaiting = s.awaiting

theorem Resumes.calm {s s' : RepushChunks} {rest : List (Nat × Addr)} (h : s.Resumes rest s')
    (hcalm : ∀ key ∈ s.awaiting, ∃ archive, s.byKey.lookup key = some archive) : Calm s' where
  phase := h.phase
  byKey := by
    rw [h.byKey, h.awaiting]
    exact hcalm

theorem resumes_loopHead (s : RepushChunks) : s.Resumes [] s.loopHead := by
  unfold loopHead
  by_cases hempty : s.awaiting = ∅
  · rw [if_pos hempty]
    exact ⟨rfl, nofun, rfl, rfl⟩
  · rw [if_neg hempty]
    exact ⟨rfl, nofun, rfl, rfl⟩

section

variable [Blake3] {job : RepushJob} {targets : List (Nat × Addr)}

/-- There is a request for every target. -/
def Requests (job : RepushJob) (targets : List (Nat × Addr)) : Prop :=
  ∀ t ∈ targets, (request job t.1).isSome = true

theorem resumes_sendRest (s : RepushChunks) (rest : List (Nat × Addr))
    (hrequests : Requests job rest) :
    ∃ rest', Books.Leaves (key? job.peers) rest rest' ∧ s.Resumes rest' (sendRest job rest s) := by
  induction rest with
  | nil => exact ⟨[], ⟨List.Sublist.refl _, nofun⟩, resumes_loopHead s⟩
  | cons t rest ih =>
      unfold sendRest
      cases hpeer : job.peers.resolve t.2 with
      | none =>
          obtain ⟨rest', hleaves, hresumes⟩ :=
            ih fun u hu => hrequests u (List.mem_cons_of_mem _ hu)
          refine ⟨rest', ⟨hleaves.sublist.cons _, ?_⟩, hresumes⟩
          intro u hu hsome
          rcases List.mem_cons.mp hu with rfl | hu
          · simp [key?, hpeer] at hsome
          · exact hleaves.keeps u hu hsome
      | some peer =>
          obtain ⟨request, hrequest⟩ :=
            Option.isSome_iff_exists.mp (hrequests t List.mem_cons_self)
          simp only [hrequest]
          exact ⟨t :: rest, ⟨List.Sublist.refl _, fun u hu _ => hu⟩, rfl, nofun, rfl, rfl⟩

/-! ### What an entry does -/

variable {s s' : RepushChunks}

omit [Blake3] in
/-- The books after a push has its result. -/
theorem books_settle (hrest : s.books.rest = []) (key : Nat × PeerId) (archive : Addr)
    (result : RepushResult) {s' : RepushChunks}
    (hresults : s'.results = s.results.insert (key.1, archive) result)
    (hbyKey : s'.byKey = s.byKey) (hawaiting : s'.awaiting = s.awaiting.erase key)
    (hattempts : s'.books.attempts = s.books.attempts) :
    s'.books.leave [] = s.books.settle key (key.1, archive) result := by
  have hresults' : s'.books.results
      = Function.update s.books.results (key.1, archive) (some result) := by
    unfold books
    rw [hresults]
    exact Maps.lookup_insert_eq_update s.results (key.1, archive) result
  have hawaited : s'.books.awaited = Function.update s.books.awaited key none := by
    unfold books
    rw [hbyKey, hawaiting]
    funext k
    rw [Function.update_apply]
    by_cases hk : k = key
    · simp [hk]
    · simp [hk]
  unfold Books.leave Books.settle
  rw [hresults', hawaited, hattempts, hrest]

omit [Blake3] in
/-- The books after a push has been counted. -/
theorem books_count (hrest : s.books.rest = []) (key : Nat × PeerId) (n : Nat) :
    (books { s with attempts := s.attempts.insert key n }).leave [] = s.books.count key n := by
  have hattempts : (books { s with attempts := s.attempts.insert key n }).attempts
      = Function.update s.books.attempts key (some n) :=
    Maps.lookup_insert_eq_update s.attempts key n
  unfold Books.leave Books.count
  rw [hattempts, hrest]
  rfl

omit [Blake3] in
/-- The books after the first push to a target. -/
theorem books_onFirst (hcalm : Calm s) {t : Nat × Addr} {key : Nat × PeerId}
    (hindex : t.1 = key.1) (hnone : s.books.awaited key = none) (ok : Bool)
    (rest : List (Nat × Addr)) :
    (s.onFirst t key ok).books.leave rest =
      { rest := rest
        resending := none
        results := Function.update s.books.results t (some .noAnswer)
        awaited := if ok then Function.update s.books.awaited key (some t) else s.books.awaited
        attempts := if ok then Function.update s.books.attempts key (some 1)
          else s.books.attempts } := by
  have hresults : (s.onFirst t key ok).books.results
      = Function.update s.books.results t (some .noAnswer) := by
    cases ok with
    | true => exact Maps.lookup_insert_eq_update s.results t .noAnswer
    | false => exact Maps.lookup_insert_eq_update s.results t .noAnswer
  have hnot := hcalm.awaiting hnone
  unfold Books.leave
  rw [hresults]
  cases ok with
  | true =>
      have hawaited : (s.onFirst t key true).books.awaited
          = Function.update s.books.awaited key (some t) := by
        funext k
        rw [Function.update_apply]
        by_cases hk : k = key
        · subst hk
          simp [books, onFirst, ← hindex]
        · simp [books, onFirst, hk, Maps.lookup_insert]
      have hattempts : (s.onFirst t key true).books.attempts
          = Function.update s.books.attempts key (some 1) :=
        Maps.lookup_insert_eq_update s.attempts key 1
      rw [hawaited, hattempts]
      rfl
  | false =>
      have hawaited : (s.onFirst t key false).books.awaited = s.books.awaited := by
        funext k
        by_cases hk : k = key
        · subst hk
          simp [books, onFirst, hnot]
        · simp [books, onFirst, hk, Maps.lookup_insert]
      rw [hawaited]
      rfl

omit [Blake3] in
theorem Calm.erase (hcalm : Calm s) (key : Nat × PeerId) :
    ∀ k ∈ s.awaiting.erase key, ∃ archive, s.byKey.lookup k = some archive :=
  fun k hk => hcalm.byKey k (Finset.mem_of_mem_erase hk)

theorem turned_of_first (hb : s.books.Sound (key? job.peers) targets) (hcalm : Calm s)
    (hrequests : Requests job targets) {t : Nat × Addr} {rest : List (Nat × Addr)}
    {key : Nat × PeerId} (hphase : s.phase = .wave (t :: rest)) (hkey : key? job.peers t = some key)
    (ok : Bool) :
    s.books.Turned (key? job.peers) job.pushRetries (Books.signFor key (.sent ok))
        (sendRest job rest (s.onFirst t key ok)).books ∧
      Calm (sendRest job rest (s.onFirst t key ok)) := by
  have hbooks : s.books.rest = t :: rest := by
    unfold books
    rw [hphase]
    rfl
  have hresending : s.books.resending = none := by
    unfold books
    rw [hphase]
    rfl
  have hsub : Requests job rest := by
    intro u hu
    refine hrequests u (hb.rest u ?_)
    rw [hbooks]
    exact List.mem_cons_of_mem _ hu
  have hnone := hb.not_awaited key?_inj hkey (by rw [hbooks]; exact List.mem_cons_self)
  have hindex := (key?_eq_some.mp hkey).1
  obtain ⟨rest', hleaves, hresumes⟩ := resumes_sendRest (s.onFirst t key ok) rest hsub
  rw [hresumes.books, books_onFirst hcalm hindex hnone]
  refine ⟨.first ok hbooks hresending hkey hleaves, hresumes.calm ?_⟩
  intro k hk
  have hold : ∀ archive, s.byKey.lookup k = some archive →
      ∃ archive, (s.byKey.insert key t.2).lookup k = some archive := by
    intro archive harchive
    exact Option.isSome_iff_exists.mp (Maps.isSome_insert (by rw [harchive]; rfl))
  cases ok with
  | true =>
      rcases Finset.mem_insert.mp hk with rfl | hk
      · exact ⟨t.2, AList.lookup_insert _⟩
      · obtain ⟨archive, harchive⟩ := hcalm.byKey k hk
        exact hold archive harchive
  | false =>
      obtain ⟨archive, harchive⟩ := hcalm.byKey k hk
      exact hold archive harchive

omit [Blake3] in
theorem turned_of_again (hcalm : Calm s)
    {key : Nat × PeerId} {archive : Addr} {n : Nat} {e : Str}
    (hphase : s.phase = .resending key archive n e) (ok : Bool) :
    s.books.Turned (key? job.peers) job.pushRetries (Books.signFor key (.sent ok))
        (s.onAgain key archive n e ok).loopHead.books ∧
      Calm (s.onAgain key archive n e ok).loopHead := by
  have hrest : s.books.rest = [] := by
    unfold books
    rw [hphase]
    rfl
  have hresending : s.books.resending = some (key, (key.1, archive), n, e) := by
    unfold books
    rw [hphase]
    rfl
  have hresumes := resumes_loopHead (s.onAgain key archive n e ok)
  have hturned : s.books.Turned (key? job.peers) job.pushRetries
      (Books.signFor key (.sent ok)) _ := .again ok hrest hresending
  rw [hresumes.books]
  cases ok with
  | true =>
      have hafter : (s.onAgain key archive n e true).books.leave [] = s.books.count key (n + 1) :=
        books_count hrest key (n + 1)
      rw [hafter]
      exact ⟨hturned, hresumes.calm hcalm.byKey⟩
  | false =>
      have hafter : (s.onAgain key archive n e false).books.leave []
          = s.books.settle key (key.1, archive) (.refused e) :=
        books_settle hrest key archive (.refused e) rfl rfl rfl rfl
      rw [hafter]
      exact ⟨hturned, hresumes.calm (hcalm.erase key)⟩

omit [Blake3] in
theorem waiting_books (hphase : s.phase = .waiting) :
    s.books.rest = [] ∧ s.books.resending = none := by
  unfold books
  rw [hphase]
  exact ⟨rfl, rfl⟩

theorem turned_of_answer (hb : s.books.Sound (key? job.peers) targets) (hcalm : Calm s)
    (hrequests : Requests job targets) (hphase : s.phase = .waiting) {key : Nat × PeerId}
    (hkey : key ∈ s.awaiting) {archive : Addr} (harchive : s.byKey.lookup key = some archive)
    (error : Option Str) :
    s.books.Turned (key? job.peers) job.pushRetries (Books.signFor key (.answered error))
        (onAnswer job s key archive error).books ∧
      Calm (onAnswer job s key archive error) := by
  obtain ⟨hrest, hresending⟩ := waiting_books hphase
  have hawaited := awaited_eq_some hkey harchive
  obtain ⟨ht, -, -, n, hn⟩ := hb.awaited key _ hawaited
  have hsettle : ∀ result attempts, (fun k => attempts.lookup k) = s.books.attempts →
      (books { s with
        results := s.results.insert (key.1, archive) result
        attempts := attempts
        awaiting := s.awaiting.erase key }).leave [] = s.books.settle key (key.1, archive) result :=
    fun result attempts hattempts => books_settle hrest key archive result rfl rfl rfl hattempts
  cases error with
  | none =>
      have hresumes := resumes_loopHead { s with
        results := s.results.insert (key.1, archive) .acknowledged
        awaiting := s.awaiting.erase key }
      refine ⟨?_, hresumes.calm (hcalm.erase key)⟩
      show Books.Turned _ _ _ _ (loopHead _).books
      rw [hresumes.books, hsettle .acknowledged s.attempts rfl]
      exact .accepted hrest hresending hawaited
  | some e =>
      have hlookup : s.attempts.lookup key = some n := hn
      have hattempts : (fun k => (s.attempts.insert key n).lookup k) = s.books.attempts := by
        rw [Maps.lookup_insert_eq_update, ← hlookup, Function.update_eq_self]
        rfl
      unfold onAnswer
      simp only [hlookup, Option.getD_some]
      by_cases hmore : n ≤ job.pushRetries
      · obtain ⟨request, hrequest⟩ := Option.isSome_iff_exists.mp (hrequests _ ht)
        rw [if_pos hmore]
        simp only [hrequest]
        have hafter : (books { s with
            attempts := s.attempts.insert key n
            phase := .resending key archive n e })
              = s.books.resend key (key.1, archive) n e := by
          unfold Books.resend
          rw [← hattempts, hrest]
          rfl
        rw [hafter]
        exact ⟨.retried hrest hresending hawaited hn hmore, nofun, hcalm.byKey⟩
      · rw [if_neg hmore]
        have hresumes := resumes_loopHead { s with
          results := s.results.insert (key.1, archive) (.refused e)
          attempts := s.attempts.insert key n
          awaiting := s.awaiting.erase key }
        rw [hresumes.books, hsettle (.refused e) (s.attempts.insert key n) hattempts]
        exact ⟨.refused hrest hresending hawaited hn hmore, hresumes.calm (hcalm.erase key)⟩

theorem turned_of_event (hb : s.books.Sound (key? job.peers) targets) (hcalm : Calm s)
    (hrequests : Requests job targets) (hphase : s.phase = .waiting) (event : SumNetEvent) :
    s.books.Turned (key? job.peers) job.pushRetries (fun key => sign job key (.read event))
        (onEvent job s event).books ∧ Calm (onEvent job s event) := by
  obtain ⟨hrest, hresending⟩ := waiting_books hphase
  have hresumes := resumes_loopHead s
  have hsame : s.books.leave [] = s.books := by
    unfold Books.leave
    rw [← hrest, ← hresending]
  have hignored : (∀ key, sign job key (.read event) = none ∨ s.books.awaited key = none ∧
        ∃ error, sign job key (.read event) = some (.answered error)) →
      s.books.Turned (key? job.peers) job.pushRetries (fun key => sign job key (.read event))
        s.loopHead.books ∧ Calm s.loopHead := by
    intro h
    rw [hresumes.books, hsame]
    exact ⟨.ignored hrest hresending h, hresumes.calm hcalm.byKey⟩
  cases event with
  | shardReceivedV2 peerId response origin =>
      cases response with
      | pushAck ackedRoot chunkIndex error =>
          unfold onEvent
          dsimp only
          by_cases hskip : ackedRoot ≠ job.merkleRoot ∨ (chunkIndex, peerId) ∉ s.awaiting
          · rw [if_pos hskip]
            refine hignored ?_
            intro key
            rw [sign_pushAck]
            by_cases hmine : ackedRoot = job.merkleRoot ∧ (chunkIndex, peerId) = key
            · rw [if_pos hmine]
              refine Or.inr ⟨?_, error, rfl⟩
              rw [← hmine.2]
              exact if_neg (hskip.resolve_left (not_not.mpr hmine.1))
            · rw [if_neg hmine]
              exact Or.inl rfl
          · rw [if_neg hskip]
            obtain ⟨hroot, hkey⟩ := not_or.mp hskip
            rw [not_not] at hroot hkey
            obtain ⟨archive, harchive⟩ := hcalm.byKey _ hkey
            rw [harchive]
            subst hroot
            have hsign : (fun key => sign job key
                (ackOf job.merkleRoot (chunkIndex, peerId) error origin))
                = Books.signFor (chunkIndex, peerId) (.answered error) := by
              funext key
              exact sign_ackOf job key (chunkIndex, peerId) error origin
            have hanswer := turned_of_answer hb hcalm hrequests hphase hkey harchive error
            rw [← hsign] at hanswer
            exact hanswer
      | data body => exact hignored fun _ => Or.inl rfl
      | manifestPushAck root error => exact hignored fun _ => Or.inl rfl
      | manifestData root blob error => exact hignored fun _ => Or.inl rfl
  | peerDiscovered peerId => exact hignored fun _ => Or.inl rfl
  | peerIdentified peerId address => exact hignored fun _ => Or.inl rfl
  | peerDisconnected peerId => exact hignored fun _ => Or.inl rfl
  | shardReceived peerId response origin => exact hignored fun _ => Or.inl rfl
  | shardRequestFailed peerId error origin => exact hignored fun _ => Or.inl rfl
  | other => exact hignored fun _ => Or.inl rfl

/-- The step lemma. -/
theorem keepsBooks (hrequests : Requests job targets) :
    KeepsBooks (key? job.peers) job.pushRetries targets (sign job) (turn job) books Calm where
  inj := key?_inj
  step := by
    intro s entry s' hb hcalm h
    unfold turn at h
    cases entry with
    | sent key ok =>
        cases hphase : s.phase with
        | wave rest =>
            cases rest with
            | nil => simp [hphase] at h
            | cons t rest =>
                simp only [hphase] at h
                by_cases hkeyed : t.1 = key.1 ∧ job.peers.resolve t.2 = some key.2
                · rw [if_pos hkeyed] at h
                  obtain rfl := Option.some.inj h
                  exact turned_of_first hb hcalm hrequests hphase (key?_eq_some.mpr hkeyed) ok
                · rw [if_neg hkeyed] at h
                  cases h
        | resending k archive n e =>
            simp only [hphase] at h
            by_cases hkey : key = k
            · subst hkey
              rw [if_pos rfl] at h
              obtain rfl := Option.some.inj h
              exact turned_of_again hcalm hphase ok
            · rw [if_neg hkey] at h
              cases h
        | waiting => simp [hphase] at h
        | done => simp [hphase] at h
        | panicked => simp [hphase] at h
    | read event =>
        cases hphase : s.phase with
        | waiting =>
            simp only [hphase] at h
            obtain rfl := Option.some.inj h
            exact turned_of_event hb hcalm hrequests hphase event
        | wave rest => simp [hphase] at h
        | resending k archive n e => simp [hphase] at h
        | done => simp [hphase] at h
        | panicked => simp [hphase] at h
    | deadline =>
        cases hphase : s.phase with
        | waiting =>
            simp only [hphase] at h
            obtain rfl := Option.some.inj h
            obtain ⟨hrest, hresending⟩ := waiting_books hphase
            have hsame : books { s with phase := .done } = s.books := by
              unfold books
              rw [hphase]
              rfl
            rw [hsame]
            exact ⟨.ignored hrest hresending fun _ => Or.inl rfl, nofun, hcalm.byKey⟩
        | wave rest => simp [hphase] at h
        | resending k archive n e => simp [hphase] at h
        | done => simp [hphase] at h
        | panicked => simp [hphase] at h

/-! ### Runs of the loop -/

theorem start_idle (hrequests : Requests job targets) :
    (start job targets).books.Idle (key? job.peers) targets ∧ Calm (start job targets) := by
  obtain ⟨rest, hleaves, hresumes⟩ := resumes_sendRest (idle targets) targets hrequests
  have hresults : ∀ t ∈ targets, (idle targets).books.results t = some .unreachable := by
    intro t ht
    show (idle targets).results.lookup t = some .unreachable
    unfold idle
    rw [Maps.lookup_const, if_pos ht]
  have hothers : ∀ t, t ∉ targets → (idle targets).books.results t = none := by
    intro t ht
    show (idle targets).results.lookup t = none
    unfold idle
    rw [Maps.lookup_const, if_neg ht]
  have hawaited : ∀ key, (idle targets).books.awaited key = none := by
    intro key
    unfold books idle
    simp
  unfold start
  refine ⟨?_, hresumes.calm fun key hkey => absurd hkey (Finset.notMem_empty key)⟩
  rw [hresumes.books]
  exact ⟨hleaves, rfl, hresults, hothers, hawaited⟩

/-- Only to peers of the archives of a chunk is it sent. -/
theorem sent_of_run (hnodup : targets.Nodup) (hrequests : Requests job targets)
    {entries : List (RepushEntry (Nat × PeerId))} {s : RepushChunks}
    (hrun : entries.foldlM (turn job) (start job targets) = some s) {key : Nat × PeerId} {ok : Bool}
    (hmem : .sent key ok ∈ entries) :
    ∃ archive, (key.1, archive) ∈ targets ∧ job.peers.resolve archive = some key.2 := by
  obtain ⟨hidle, hcalm⟩ := start_idle hrequests
  have hsent : ∀ key ok, sign job key (.sent key ok) = some (.sent ok) := by
    intro key ok
    rw [sign_sent]
    exact Books.signFor_self key _
  obtain ⟨⟨i, archive⟩, ht, hkey⟩ := (keepsBooks hrequests).sent hidle hnodup hcalm hsent hrun hmem
  obtain ⟨rfl, hpeer⟩ := key?_eq_some.mp hkey
  exact ⟨archive, ht, hpeer⟩

/-- The loop does not panic, and what it leaves behind is exact. -/
theorem repushChunks_spec (hnodup : targets.Nodup) (hrequests : Requests job targets)
    (entries : List (RepushEntry (Nat × PeerId))) :
    job.repushChunks targets entries = .error .running ∨
      ∃ results, job.repushChunks targets entries = .ok results ∧
        Ends (key? job.peers) job.pushRetries (ackOf job.merkleRoot) targets entries
          results.lookup := by
  obtain ⟨hidle, hcalm⟩ := start_idle hrequests
  have hkeeps := keepsBooks hrequests
  unfold RepushJob.repushChunks
  cases hrun : entries.foldlM (turn job) (start job targets) with
  | none => exact Or.inl rfl
  | some s =>
      dsimp only
      cases hphase : s.phase with
      | wave rest => exact Or.inl rfl
      | waiting => exact Or.inl rfl
      | resending key archive n e => exact Or.inl rfl
      | panicked =>
          obtain ⟨hcalm', -, -⟩ := hkeeps.run hidle hnodup hcalm entries s hrun
          exact absurd hphase hcalm'.phase
      | done =>
          have hrest : s.books.rest = [] := by
            unfold books
            rw [hphase]
            rfl
          obtain ⟨-, hends⟩ := hkeeps.ends (signs job) hidle hnodup hcalm hrun hrest
          exact Or.inr ⟨s.results, rfl, hends⟩

end

end RepushChunks

end Snip
