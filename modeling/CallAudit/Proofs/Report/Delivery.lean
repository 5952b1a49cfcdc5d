import CallAudit.Proofs.Report.Agreement
import CallAudit.Proofs.Report.Total
import Mathlib.Logic.Relation

/-!
# Results delivered in any order

Searches hand their results to the report through a channel, first in, first out.  Which result is
sent next is left open, and so is whether the report reads while results are still being sent.
Whatever happens, every result is handled before the report ends, and any two ways for it to happen
leave ledgers that agree (`deliveries_agree`).
-/

namespace CallAudit

/-- The side that sends: searches with results to send, until there are none and they say so. -/
inductive Sender where
  | searching (unsent : List SearchResult)
  | stopped

namespace Sender

def unsent : Sender → List SearchResult
  | searching unsent => unsent
  | stopped => []

/-- The word that comes after the results, once it is sent. -/
def word : Sender → List Message
  | searching _ => []
  | stopped => [.done]

end Sender

/-- The side that reads. At the end it remembers what it had recorded when the last message came. -/
inductive Reporter where
  | reading (ledger : Ledger) (w : Writer)
  | ended (recorded : Ledger) (outcome : Except AuditError Ledger × Writer)

/-- The two sides and the channel between them. -/
structure Delivery where
  sender : Sender
  channel : List Message := []
  /-- The results that have been read, in order. No step depends on them. -/
  handled : List SearchResult := []
  reporter : Reporter

namespace Delivery

/-- What may happen next. -/
inductive Step (b : Basis) (rules : List CategoryRule) (s : Delivery) : Delivery → Prop
  | send (before : List SearchResult) {r : SearchResult} {after : List SearchResult}
      (hsender : s.sender = .searching (before ++ r :: after)) :
      Step b rules s
        { s with sender := .searching (before ++ after), channel := s.channel ++ [.result r] }
  | stop (hsender : s.sender = .searching []) :
      Step b rules s { s with sender := .stopped, channel := s.channel ++ [.done] }
  | report {r : SearchResult} {rest : List Message} {ledger ledger' : Ledger} {w w' : Writer}
      (hchannel : s.channel = .result r :: rest) (hreporter : s.reporter = .reading ledger w)
      (hchains : Report.chains b rules r r.destinations ledger w = (.ok ledger', w')) :
      Step b rules s
        { s with channel := rest, handled := s.handled ++ [r], reporter := .reading ledger' w' }
  | fail {r : SearchResult} {rest : List Message} {ledger : Ledger} {w w' : Writer}
      {error : AuditError} (hchannel : s.channel = .result r :: rest)
      (hreporter : s.reporter = .reading ledger w)
      (hchains : Report.chains b rules r r.destinations ledger w = (.error error, w')) :
      Step b rules s
        { s with
          channel := rest, handled := s.handled ++ [r]
          reporter := .ended ledger (.error error, w') }
  | finish {rest : List Message} {ledger : Ledger} {w : Writer}
      (hchannel : s.channel = .done :: rest) (hreporter : s.reporter = .reading ledger w) :
      Step b rules s
        { s with channel := rest, reporter := .ended ledger (Report.finish b ledger w) }

/-- What is left to do: a result takes two steps, its sending and its reading, and so does the word
that there are no more. -/
def remaining (s : Delivery) : Nat :=
  2 * s.sender.unsent.length + 2 * (1 - s.sender.word.length) + s.channel.length

theorem Step.remaining_lt {b : Basis} {rules : List CategoryRule} {s s' : Delivery}
    (h : Step b rules s s') : s'.remaining < s.remaining := by
  cases h with
  | send _ hsender | stop hsender =>
    simp only [remaining, hsender, Sender.unsent, Sender.word, List.length_append, List.length_cons,
      List.length_nil]
    omega
  | report hchannel | fail hchannel | finish hchannel =>
    simp only [remaining, hchannel, List.length_cons]
    omega

section

variable {b : Basis} {rules : List CategoryRule} {rs : List SearchResult} {ledger₀ : Ledger}
  {w₀ : Writer} {s s' : Delivery}

/-- What the report has recorded and written is what the results it has read make of its beginnings. -/
structure Recorded (b : Basis) (rules : List CategoryRule) (ledger₀ : Ledger) (w₀ : Writer)
    (s : Delivery) (ledger : Ledger) (w : Writer) : Prop where
  results : Report.results b rules s.handled ledger₀ w₀ = (.ok ledger, w)
  unlimited : w.sink.capacity = none

/-- Where every result is: handled, in the channel or still to be sent.  Nothing comes after the word
that there are no more results. -/
inductive Sound (b : Basis) (rules : List CategoryRule) (rs : List SearchResult) (ledger₀ : Ledger)
    (w₀ : Writer) (s : Delivery) : Prop
  | reading (sent : List SearchResult) {ledger : Ledger} {w : Writer}
      (hchannel : s.channel = sent.map .result ++ s.sender.word)
      (hreporter : s.reporter = .reading ledger w)
      (hrecorded : s.Recorded b rules ledger₀ w₀ ledger w)
      (hall : (s.handled ++ (sent ++ s.sender.unsent)).Perm rs)
  | ended {ledger : Ledger} {w : Writer}
      (hsender : s.sender = .stopped) (hchannel : s.channel = [])
      (hreporter : s.reporter = .ended ledger (Report.finish b ledger w))
      (hrecorded : s.Recorded b rules ledger₀ w₀ ledger w) (hall : s.handled.Perm rs)

/-- Reading a result that can be put into words. -/
theorem Recorded.read {r : SearchResult} {ledger : Ledger} {w : Writer}
    (h : s.Recorded b rules ledger₀ w₀ ledger w)
    (hr : ∀ d ∈ r.destinations, ∃ ch, b.chain r d = .ok ch) :
    ∃ ledger' w', Report.chains b rules r r.destinations ledger w = (.ok ledger', w') ∧
      Report.results b rules (s.handled ++ [r]) ledger₀ w₀ = (.ok ledger', w') ∧
      w'.sink.capacity = none := by
  obtain ⟨ledger', w', hchains, hw'⟩ := Report.exists_chains rules hr h.unlimited
  exact ⟨ledger', w', hchains, (Report.results_concat h.results).trans hchains, hw'⟩

/-- The result at the front of the channel is the first of those that were sent. -/
theorem first_of_sent {sender : Sender} {sent : List SearchResult} {rest : List Message}
    {r : SearchResult} (h : sent.map Message.result ++ sender.word = .result r :: rest) :
    ∃ sent', sent = r :: sent' ∧ rest = sent'.map .result ++ sender.word := by
  cases sent with
  | nil => cases sender <;> exact absurd h (by simp [Sender.word])
  | cons r' sent' =>
    obtain ⟨hr, hrest⟩ := List.cons.inj h
    obtain rfl := Message.result.inj hr
    exact ⟨sent', rfl, hrest.symm⟩

/-- The word that there are no more results comes last. -/
theorem last_of_sent {sender : Sender} {sent : List SearchResult} {rest : List Message}
    (h : sent.map Message.result ++ sender.word = .done :: rest) :
    sent = [] ∧ sender = .stopped ∧ rest = [] := by
  cases sent with
  | nil =>
    cases sender with
    | searching unsent => exact absurd h (by simp [Sender.word])
    | stopped => exact ⟨rfl, rfl, (List.cons.inj h).2.symm⟩
  | cons r sent => exact absurd (List.cons.inj h).1 (by simp)

theorem Sound.step (hworded : ∀ r ∈ rs, ∀ d ∈ r.destinations, ∃ ch, b.chain r d = .ok ch)
    (h : s.Sound b rules rs ledger₀ w₀) (hstep : Step b rules s s') :
    s'.Sound b rules rs ledger₀ w₀ := by
  cases h with
  | @reading sent ledger w hchannel hreporter hrecorded hall =>
    cases hstep with
    | @send before r after hsender =>
      rw [hsender] at hchannel hall
      refine .reading (sent ++ [r]) ?_ hreporter ⟨hrecorded.1, hrecorded.2⟩ ?_
      · rw [hchannel, List.map_append, Sender.word, List.append_nil, Sender.word, List.append_nil]
        rfl
      · refine List.Perm.trans (List.Perm.append_left s.handled ?_) hall
        rw [List.append_assoc]
        show (sent ++ r :: (before ++ after)).Perm (sent ++ (before ++ r :: after))
        exact List.perm_middle.symm.append_left sent
    | stop hsender =>
      rw [hsender] at hchannel hall
      refine .reading sent ?_ hreporter ⟨hrecorded.1, hrecorded.2⟩ hall
      rw [hchannel, Sender.word, List.append_nil]
      rfl
    | @report r rest _ _ _ _ hfront hreporter' hchains =>
      obtain ⟨rfl, rfl⟩ := Reporter.reading.inj (hreporter.symm.trans hreporter')
      obtain ⟨sent', rfl, hrest⟩ := first_of_sent (hchannel.symm.trans hfront)
      obtain ⟨ledger₁, w₁, hchains₁, hresults, hw₁⟩ :=
        hrecorded.read (hworded r (hall.subset (by simp)))
      obtain ⟨hledger, rfl⟩ := Prod.mk.inj (hchains₁.symm.trans hchains)
      obtain rfl := Except.ok.inj hledger
      refine .reading sent' hrest rfl ⟨hresults, hw₁⟩ ?_
      rwa [List.append_assoc]
    | @fail r rest _ _ _ _ hfront hreporter' hchains =>
      obtain ⟨rfl, rfl⟩ := Reporter.reading.inj (hreporter.symm.trans hreporter')
      obtain ⟨sent', rfl, -⟩ := first_of_sent (hchannel.symm.trans hfront)
      obtain ⟨ledger₁, w₁, hchains₁, -⟩ := hrecorded.read (hworded r (hall.subset (by simp)))
      exact absurd (Prod.mk.inj (hchains₁.symm.trans hchains)).1 (by simp)
    | finish hfront hreporter' =>
      obtain ⟨rfl, rfl⟩ := Reporter.reading.inj (hreporter.symm.trans hreporter')
      obtain ⟨rfl, hsender, rfl⟩ := last_of_sent (hchannel.symm.trans hfront)
      rw [hsender, Sender.unsent, List.nil_append, List.append_nil] at hall
      exact .ended hsender rfl rfl ⟨hrecorded.1, hrecorded.2⟩ hall
  | ended hsender hchannel =>
    -- there is nothing left to send and nothing left to read
    cases hstep with
    | send _ hsender' | stop hsender' => exact absurd (hsender.symm.trans hsender') (by simp)
    | report hfront | fail hfront | finish hfront =>
      exact absurd (hchannel.symm.trans hfront) (by simp)

/-- As long as the report has not ended there is something to do. -/
theorem Sound.progress (h : s.Sound b rules rs ledger₀ w₀) :
    (∃ s', Step b rules s s') ∨ ∃ recorded outcome, s.reporter = .ended recorded outcome := by
  cases h with
  | @reading sent ledger w hchannel hreporter hrecorded hall =>
    left
    cases sent with
    | cons r sent =>
      -- a result that was sent can be read
      generalize hchains : Report.chains b rules r r.destinations ledger w = outcome
      obtain ⟨result, w'⟩ := outcome
      cases result with
      | ok ledger' => exact ⟨_, .report hchannel hreporter hchains⟩
      | error error => exact ⟨_, .fail hchannel hreporter hchains⟩
    | nil =>
      cases hsender : s.sender with
      | stopped =>
        rw [hsender] at hchannel
        exact ⟨_, .finish hchannel hreporter⟩
      | searching unsent =>
        cases unsent with
        | nil => exact ⟨_, .stop hsender⟩
        | cons r unsent => exact ⟨_, .send [] hsender⟩
  | ended _ _ hreporter => exact Or.inr ⟨_, _, hreporter⟩

/-- The two sides before anything has been sent. -/
def start (rs : List SearchResult) (ledger₀ : Ledger) (w₀ : Writer) : Delivery where
  sender := .searching rs
  reporter := .reading ledger₀ w₀

theorem sound_start (hw₀ : w₀.sink.capacity = none) :
    (start rs ledger₀ w₀).Sound b rules rs ledger₀ w₀ :=
  .reading [] rfl rfl ⟨rfl, hw₀⟩ (.refl rs)

/-- What may come of the beginning. -/
def Reachable (b : Basis) (rules : List CategoryRule) (rs : List SearchResult) (ledger₀ : Ledger)
    (w₀ : Writer) (s : Delivery) : Prop :=
  Relation.ReflTransGen (Step b rules) (start rs ledger₀ w₀) s

theorem Reachable.sound (hworded : ∀ r ∈ rs, ∀ d ∈ r.destinations, ∃ ch, b.chain r d = .ok ch)
    (hw₀ : w₀.sink.capacity = none) (h : Reachable b rules rs ledger₀ w₀ s) :
    s.Sound b rules rs ledger₀ w₀ := by
  induction h with
  | refl => exact sound_start hw₀
  | tail _ hstep ih => exact ih.step hworded hstep

/-- The results may be sent in any order: each can be the next to be sent and read. -/
theorem reads_in_order (rules : List CategoryRule) {rs' : List SearchResult}
    (hworded : ∀ r ∈ rs', ∀ d ∈ r.destinations, ∃ ch, b.chain r d = .ok ch)
    (handled : List SearchResult) {unsent : List SearchResult} (horder : rs'.Perm unsent)
    {ledger : Ledger} {w : Writer} (hw : w.sink.capacity = none) :
    ∃ ledger' w', Relation.ReflTransGen (Step b rules)
      ⟨.searching unsent, [], handled, .reading ledger w⟩
      ⟨.searching [], [], handled ++ rs', .reading ledger' w'⟩ := by
  induction rs' generalizing handled unsent ledger w with
  | nil =>
    obtain rfl := horder.nil_eq
    rw [List.append_nil]
    exact ⟨ledger, w, .refl⟩
  | cons r rs' ih =>
    obtain ⟨before, after, rfl⟩ := List.append_of_mem (horder.subset List.mem_cons_self)
    have hrest : rs'.Perm (before ++ after) := (horder.trans List.perm_middle).cons_inv
    obtain ⟨ledger₁, w₁, hchains, hw₁⟩ :=
      Report.exists_chains rules (hworded r List.mem_cons_self) hw
    obtain ⟨ledger', w', hreads⟩ :=
      ih (fun r' hr' => hworded r' (List.mem_cons_of_mem r hr')) (handled ++ [r]) hrest hw₁
    rw [List.append_cons handled]
    exact ⟨ledger', w', .head (.send before rfl) (.head (.report rfl rfl hchains) hreads)⟩

theorem exists_reachable {rs' : List SearchResult}
    (hworded : ∀ r ∈ rs, ∀ d ∈ r.destinations, ∃ ch, b.chain r d = .ok ch)
    (hw₀ : w₀.sink.capacity = none) (horder : rs'.Perm rs) :
    ∃ s recorded outcome, Reachable b rules rs ledger₀ w₀ s ∧ s.handled = rs' ∧
      s.reporter = .ended recorded outcome := by
  have hworded' : ∀ r ∈ rs', ∀ d ∈ r.destinations, ∃ ch, b.chain r d = .ok ch :=
    fun r hr => hworded r (horder.subset hr)
  obtain ⟨ledger, w, hreads⟩ := reads_in_order rules hworded' [] horder hw₀
  exact ⟨_, _, _, (hreads.tail (.stop rfl)).tail (.finish rfl rfl), rfl, rfl⟩

end

end Delivery

/-! ## Ways to deliver the results of an analysis -/

/-- Results that arrive in another order are entered in another order. -/
theorem Report.entries_perm {b : Basis} {rs rs' : List SearchResult} (h : rs.Perm rs')
    {es : List Entry} (hes : entries b rs = .ok es) :
    ∃ es', entries b rs' = .ok es' ∧ es.Perm es' :=
  exists_perm_of_mapM_ok (h.flatMap_right _) hes

namespace Analysis

variable {options : AnalysisOptions} {program : Program} {facts : Facts} {c : Classifier}
  {p : Prepared} {sink : Sink} {s s' : Delivery}

/-- How the results of an analysis may be delivered. -/
def Delivers (options : AnalysisOptions) (program : Program) (facts : Facts) (p : Prepared)
    (sink : Sink) (s : Delivery) : Prop :=
  Delivery.Reachable (basis program p) options.categoryRules
    (results options program facts p.snapshot) (Ledger.empty p.snapshot.size options.grouping)
    { sink, json := options.json, grouping := options.grouping } s

theorem Delivers.sound (hp : p.Judged c program) (hsink : sink.capacity = none)
    (h : Delivers options program facts p sink s) :
    s.Sound (basis program p) options.categoryRules (results options program facts p.snapshot)
      (Ledger.empty p.snapshot.size options.grouping)
      { sink, json := options.json, grouping := options.grouping } :=
  Delivery.Reachable.sound (fun _ hr _ hd => exists_chain hp hr hd) hsink h

/-- Every order is one in which the results may be delivered. -/
theorem exists_delivers {rs : List SearchResult} (hp : p.Judged c program)
    (hsink : sink.capacity = none) (h : rs.Perm (results options program facts p.snapshot)) :
    ∃ s recorded outcome, Delivers options program facts p sink s ∧ s.handled = rs ∧
      s.reporter = .ended recorded outcome :=
  Delivery.exists_reachable (fun _ hr _ hd => exists_chain hp hr hd) hsink h

/-- When the report has ended, it has handled every result, and its outcome is that of a report to
which the results came in this order. -/
theorem Delivers.ended (hp : p.Judged c program) (hsink : sink.capacity = none)
    (h : Delivers options program facts p sink s) {recorded : Ledger}
    {outcome : Except AuditError Ledger × Writer} (hended : s.reporter = .ended recorded outcome) :
    s.handled.Perm (results options program facts p.snapshot) ∧
      Report.run (basis program p) options.categoryRules (s.handled.map .result ++ [.done]) none
        (Ledger.empty p.snapshot.size options.grouping)
        { sink, json := options.json, grouping := options.grouping } = outcome ∧
      (∃ ledger, outcome.1 = .ok ledger ∧
        { ledger with groups := [] } = { recorded with groups := [] }) ∧
      ∃ es, Report.entries (basis program p) s.handled = .ok es ∧
        recorded = ledgerOf options program p es := by
  cases h.sound hp hsink with
  | reading _ _ hreporter => exact absurd (hreporter.symm.trans hended) (by simp)
  | @ended ledger w _ _ hreporter hrecorded hall =>
    obtain ⟨rfl, rfl⟩ := Reporter.ended.inj (hreporter.symm.trans hended)
    obtain ⟨es, hes⟩ := Report.results_ok hrecorded.results
    obtain ⟨ledger', w', hfinish, hgroups⟩ :=
      Report.exists_finish (basis program p) ledger hrecorded.unlimited
    refine ⟨hall, ?_, ⟨ledger', by rw [hfinish], hgroups⟩, es, hes.worded, hes.entered⟩
    unfold Report.run Report.consume
    rw [results_messages, hrecorded.results]
    dsimp only
    rw [hfinish]

end Analysis

/-- Whatever order the results of an analysis are delivered in, the report goes on until it has
handled all of them and ends well, and its ledger and summary are the same as in any other order, up
to the order of chains within a group and of lines with equal counts. -/
theorem deliveries_agree {options : AnalysisOptions} {program : Program} {facts : Facts}
    {c : Classifier} {p : Prepared} {sink : Sink} (hp : Prepared.of c program facts = .ok p)
    (hsink : sink.capacity = none) :
    (∀ s s', Delivery.Step (Analysis.basis program p) options.categoryRules s s' →
      s'.remaining < s.remaining) ∧
    (∀ s, Analysis.Delivers options program facts p sink s →
      (∃ s', Delivery.Step (Analysis.basis program p) options.categoryRules s s') ∨
        ∃ recorded outcome, s.reporter = .ended recorded outcome) ∧
    (∀ rs, rs.Perm (Analysis.results options program facts p.snapshot) →
      ∃ s recorded outcome, Analysis.Delivers options program facts p sink s ∧ s.handled = rs ∧
        s.reporter = .ended recorded outcome) ∧
    (∀ s recorded outcome, Analysis.Delivers options program facts p sink s →
      s.reporter = .ended recorded outcome →
      s.handled.Perm (Analysis.results options program facts p.snapshot) ∧
        Report.run (Analysis.basis program p) options.categoryRules
          (s.handled.map .result ++ [.done]) none
          (Ledger.empty p.snapshot.size options.grouping)
          { sink, json := options.json, grouping := options.grouping } = outcome ∧
        ∃ ledger, outcome.1 = .ok ledger ∧
          { ledger with groups := [] } = { recorded with groups := [] }) ∧
    ∀ s s' recorded recorded' outcome outcome' ledger ledger',
      Analysis.Delivers options program facts p sink s →
      Analysis.Delivers options program facts p sink s' →
      s.reporter = .ended recorded outcome → s'.reporter = .ended recorded' outcome' →
      outcome.1 = .ok ledger → outcome'.1 = .ok ledger' →
      recorded.Agrees recorded' ∧
        Summary.SameNumbers (ledger.summarize program p.snapshot c.knownReasons)
          (ledger'.summarize program p.snapshot c.knownReasons) ∧
        (ledger.summarize program p.snapshot c.knownReasons).unreported =
          (ledger'.summarize program p.snapshot c.knownReasons).unreported := by
  obtain ⟨u, -, hu, rfl⟩ := Prepared.of_ok hp
  refine ⟨fun s s' => Delivery.Step.remaining_lt, ?_,
    fun rs hrs => Analysis.exists_delivers hu.prune hsink hrs, ?_, ?_⟩
  · intro s hs
    exact (hs.sound hu.prune hsink).progress
  · intro s recorded outcome hs hended
    obtain ⟨hall, hrun, hledger, -⟩ := hs.ended hu.prune hsink hended
    exact ⟨hall, hrun, hledger⟩
  · intro s s' recorded recorded' outcome outcome' ledger ledger' hs hs' hended hended' hledger
      hledger'
    obtain ⟨hall, -, ⟨ledger₁, hledger₁, hgroups⟩, es, hes, rfl⟩ := hs.ended hu.prune hsink hended
    obtain ⟨hall', -, ⟨ledger₁', hledger₁', hgroups'⟩, es', hes', rfl⟩ :=
      hs'.ended hu.prune hsink hended'
    obtain rfl := Except.ok.inj (hledger.symm.trans hledger₁)
    obtain rfl := Except.ok.inj (hledger'.symm.trans hledger₁')
    -- the same chains were entered in another order
    obtain ⟨es₁, hes₁, hperm⟩ := Report.entries_perm (hall.trans hall'.symm) hes
    obtain rfl := Except.ok.inj (hes₁.symm.trans hes')
    have hagrees : (Analysis.ledgerOf options program u.prune es).Agrees
        (Analysis.ledgerOf options program u.prune es₁) := Ledger.agrees_of_perm hperm
    rw [Analysis.summarize_congr hgroups, Analysis.summarize_congr hgroups']
    refine ⟨hagrees, ?_, ?_⟩
    · exact Ledger.summarize_sameNumbers _ (.refl program u.prune.snapshot) (hperm.map _)
    · exact Ledger.unreported_congr hagrees.reported

/-- Two results agree in the order of the search and the other way round. -/
theorem deliveries_agree_reversed :
    ∃ p, Prepared.of .generic .generic .generic = .ok p ∧ ({} : Sink).capacity = none ∧
      (Analysis.results {} .generic .generic p.snapshot).length = 2 ∧
      ∃ (s s' : Delivery) (recorded recorded' : Ledger)
          (outcome outcome' : Except AuditError Ledger × Writer),
        s.handled = Analysis.results {} .generic .generic p.snapshot ∧
        s'.handled = (Analysis.results {} .generic .generic p.snapshot).reverse ∧
        s.reporter = .ended recorded outcome ∧ s'.reporter = .ended recorded' outcome' ∧
        recorded.Agrees recorded' := by
  have hcount : (Prepared.of .generic .generic .generic).toOption.map (fun p =>
      (Analysis.results {} .generic .generic p.snapshot).length) = some 2 := by cbv
  generalize hp : Prepared.of .generic .generic .generic = outcome at hcount
  cases outcome with
  | error e => exact absurd hcount (by simp [Except.toOption])
  | ok p =>
    obtain ⟨-, -, horders, hends, hagree⟩ :=
      @deliveries_agree {} .generic .generic .generic p {} hp rfl
    obtain ⟨s, recorded, outcome, hs, hhandled, hended⟩ := horders _ (.refl _)
    obtain ⟨s', recorded', outcome', hs', hhandled', hended'⟩ := horders _ (List.reverse_perm _)
    obtain ⟨-, -, ledger, hledger, -⟩ := hends s recorded outcome hs hended
    obtain ⟨-, -, ledger', hledger', -⟩ := hends s' recorded' outcome' hs' hended'
    refine ⟨p, rfl, rfl, Option.some.inj hcount, s, s', recorded, recorded', outcome, outcome',
      hhandled, hhandled', hended, hended', ?_⟩
    exact (hagree s s' recorded recorded' outcome outcome' ledger ledger' hs hs' hended hended'
      hledger hledger').1

end CallAudit
