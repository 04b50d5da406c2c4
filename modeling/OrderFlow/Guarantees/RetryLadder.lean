import OrderFlow.Processing
import OrderFlow.Runs.Ladders
import OrderFlow.Sample

/-!
The retry ladder, end to end. While nothing fails under the calls on an order's
records and each record is handed over once, the consumers climb the ladder of its
event: consecutive attempts, and one verdict for which all the evidence agrees.
-/
namespace OrderFlow
open AsyncCoroutine AsyncPool

variable {deployment : Deployment} {pool after start : Pipeline} {thread : Nat} {op : Op}
  {outcome : Outcome Exn op.Reply} {event : OrderEvent} {record : ConsumerRecord} {label : Moment}
  {first : Nat} {place : TopicPartition × Nat} {past : List (Pipeline × Moment)}

/-- The row, the trail, the calls of `fulfil` and the records put out are a ladder's. -/
structure Shows (deployment : Deployment) (event : OrderEvent) (first : Nat)
    (past : List (Pipeline × Moment)) (pool : Pipeline) (ladder : Ladder) : Prop where
  climbed : Ladder.Climbed deployment.settings first ladder
  status : HasStatus pool event.orderId (ladder.status deployment.settings first)
  trail : (pool.world.transitions event.orderId).map StatusTransition.toStatus =
    ladder.trail deployment.settings first
  tries : (past.filterMap (tried deployment event)).reverse = ladder.tries first
  puts : (past.filterMap (put deployment event)).reverse = ladder.puts deployment.settings first

/-- At every moment of the run a ladder has been climbed to where the order stands. -/
theorem retry_ladder_climbed (ran : Ran deployment start)
    (fresh : Fresh deployment event first place start)
    (path : Path (system deployment) (Peaceful deployment event) start past pool) :
    (∃ ladder, Shows deployment event first past pool ladder) ∧
      ((past.filterMap (put deployment event)).length : Int) ≤
        2 * max 0 (deployment.settings.maxAttempts - first) + 1 := by
  obtain ⟨ladder, spot, climbed, climbing, tries, puts⟩ := on_ladder ran fresh path
  refine ⟨⟨ladder, climbed, climbing.status, climbing.trail, tries, puts⟩, ?_⟩
  rw [← List.length_reverse, puts]
  exact (Ladder.sound climbed).puts_bounded

/-- The status the last attempt leads to. -/
def verdict : Except Exn Unit → OrderStatus
  | .ok _ => .completed
  | .error _ => .failed

/-- How the ladder of an event has ended: the attempts that were retried, and the last. -/
structure Concluded (deployment : Deployment) (event : OrderEvent) (first : Nat)
    (past : List (Pipeline × Moment)) (pool : Pipeline) (earlier : List (Except Exn Unit))
    (last : Except Exn Unit) : Prop where
  ends : Ladder.Ends deployment.settings first earlier last
  tries : (past.filterMap (tried deployment event)).reverse =
    (earlier ++ [last]).mapIdx fun i result => (first + i, result)
  status : HasStatus pool event.orderId (verdict last)
  trail : (pool.world.transitions event.orderId).map StatusTransition.toStatus =
    .pending :: (List.replicate earlier.length [.processing, .pending]).flatten ++
      [.processing, verdict last]
  resent : (past.filterMap (put deployment event)).count deployment.settings.topicRetry =
    earlier.length
  replayed : (past.filterMap (put deployment event)).count deployment.settings.topicOrders =
    earlier.length
  letters : (past.filterMap (put deployment event)).count deployment.settings.topicDlq =
    if verdict last = .failed then 1 else 0

/-- An attempt that is not retried leads to its verdict. -/
theorem aim_verdict {settings : Settings} {attempt : Nat} {result : Except Exn Unit}
    (concludes : Concludes result) (stops : settings.aim attempt result ≠ .pending) :
    settings.aim attempt result = verdict result := by
  cases result with
  | ok done => rfl
  | error error =>
    cases error with
    | transient message =>
      simp only [Settings.aim] at stops ⊢
      split at stops
      · exact absurd rfl stops
      · rename_i above
        exact if_neg above
    | permanent message => rfl
    | _ => exact concludes.elim

/-- How often a ladder that is over has put a record on each topic. -/
theorem puts_count {settings : Settings} {earlier : List (Except Exn Unit)}
    {last : Except Exn Unit} (aims : settings.aim (first + earlier.length) last = verdict last) :
    (Ladder.puts settings first ⟨earlier, .ended last⟩).count settings.topicRetry = earlier.length ∧
    (Ladder.puts settings first ⟨earlier, .ended last⟩).count settings.topicOrders =
      earlier.length ∧
    (Ladder.puts settings first ⟨earlier, .ended last⟩).count settings.topicDlq =
      if verdict last = .failed then 1 else 0 := by
  obtain ⟨ordersRetry, ordersDlq, retryDlq⟩ := settings.topics_distinct
  have ended : Ladder.aim settings first ⟨earlier, .ended last⟩ last = verdict last := aims
  simp only [Ladder.puts, Rung.puts, ended]
  by_cases failed : verdict last = .failed
  · simp [failed, List.count_flatten, ordersRetry, ordersDlq, retryDlq, Ne.symm ordersRetry,
      Ne.symm ordersDlq, Ne.symm retryDlq]
  · simp [failed, List.count_flatten, ordersRetry, ordersDlq, retryDlq, Ne.symm ordersRetry]

/-- A ladder is over once no record of the event waits. -/
theorem ladder_over (ran : Ran deployment start) (fresh : Fresh deployment event first place start)
    (path : Path (system deployment) (Peaceful deployment event) start past pool)
    (rests : ∀ consumer, consumer ≠ .dlq → ¬ Waiting deployment pool consumer event) :
    ∃ earlier last spot,
      OnLadder deployment event first past ⟨earlier, .ended last⟩ spot pool := by
  obtain ⟨⟨earlier, rung⟩, spot, standing⟩ := on_ladder ran fresh path
  have done : rung.live = false := by
    by_contra live
    rw [Bool.not_eq_false] at live
    refine rests rung.consumer ?_ (standing.climbing.waiting (ran_along path ran) live)
    cases rung <;> rintro ⟨⟩
  cases rung with
  | ended last => exact ⟨earlier, last, spot, standing⟩
  | _ => cases done

/-- A ladder that is over says how the event ended. -/
theorem OnLadder.concluded {earlier : List (Except Exn Unit)} {last : Except Exn Unit}
    {spot : TopicPartition × Nat}
    (standing : OnLadder deployment event first past ⟨earlier, .ended last⟩ spot pool) :
    Concluded deployment event first past pool earlier last := by
  have sound := Ladder.sound standing.climbed
  obtain ⟨concludes, stops⟩ := sound.last last (List.mem_singleton_self _)
  have aims : deployment.settings.aim (first + earlier.length) last = verdict last :=
    aim_verdict concludes stops
  have ended : Ladder.aim deployment.settings first ⟨earlier, .ended last⟩ last = verdict last := aims
  have counts := puts_count aims
  rw [← standing.puts] at counts
  simp only [List.count_reverse] at counts
  have status := standing.climbing.status
  have trail := standing.climbing.trail
  simp only [Ladder.status, Ladder.trail, Rung.hops, ended] at status trail
  exact ⟨sound.ends, standing.tries, status, trail, counts.1, counts.2.1, counts.2.2⟩

/-- Once no record of the event waits, its ladder is over, and everything agrees on how. -/
theorem retry_ladder_concludes (ran : Ran deployment start)
    (fresh : Fresh deployment event first place start)
    (path : Path (system deployment) (Peaceful deployment event) start past pool)
    (rests : ∀ consumer, consumer ≠ .dlq → ¬ Waiting deployment pool consumer event) :
    ∃ earlier last, Concluded deployment event first past pool earlier last := by
  obtain ⟨earlier, last, spot, standing⟩ := ladder_over ran fresh path rests
  exact ⟨earlier, last, standing.concluded⟩

/-! ### With the repository's `fulfil` -/

theorem tried_results (ran : Ran deployment start) (fresh : Fresh deployment event first place start)
    (path : Path (system deployment) (Peaceful deployment event) start past pool) :
    ∀ shown ∈ past.filterMap (tried deployment event),
      deployment.mayFulfil event shown.2 = true := by
  induction path with
  | here =>
    intro shown member
    cases member
  | @step past pool label after walked permitted moved ih =>
    obtain ⟨_, _, _, climbing, _, _⟩ := on_ladder ran fresh walked
    intro shown member
    rw [List.filterMap_cons] at member
    cases seen : tried deployment event (pool, label) with
    | none =>
      rw [seen] at member
      exact ih shown member
    | some newest =>
      rw [seen] at member
      rcases List.mem_cons.mp member with rfl | before
      · exact climbing.apart.tried_may (ran_along walked ran) moved seen
      · exact ih shown before

/-- How many attempts are made when every one of them ends so. -/
def attemptsMade (settings : Settings) (first : Nat) : Except Exn Unit → Nat
  | .error (.transient _) => (settings.maxAttempts - first).toNat + 1
  | _ => 1

theorem Ladder.Ends.length {settings : Settings} {earlier : List (Except Exn Unit)}
    {last result : Except Exn Unit} (ends : Ladder.Ends settings first earlier last)
    (same : ∀ other ∈ earlier ++ [last], other = result) :
    earlier.length + 1 = attemptsMade settings first result := by
  obtain ⟨bounded, retried, stops⟩ := ends
  obtain rfl : last = result := same last (by simp)
  have none : (∀ message, last ≠ .error (.transient message)) → earlier.length = 0 := by
    intro final
    by_contra some
    have inside : 0 < earlier.length := Nat.pos_of_ne_zero some
    obtain ⟨⟨message, again⟩, _⟩ := retried 0 _ (List.getElem?_eq_getElem inside)
    refine final message ?_
    rw [← again]
    exact (same _ (by simp)).symm
  rcases stops with rfl | ⟨message, rfl⟩ | ⟨⟨message, rfl⟩, above⟩
  · rw [none (by rintro message ⟨⟩)]
    rfl
  · rw [none (by rintro other ⟨⟩)]
    rfl
  · simp only [attemptsMade]
    omega

/-- Where `fulfil` does what the repository's does, the event alone decides how often it is
    called and how the order ends. -/
theorem retry_ladder_determined (ran : Ran deployment start)
    (fresh : Fresh deployment event first place start)
    (path : Path (system deployment) (Peaceful deployment event) start past pool)
    (rests : ∀ consumer, consumer ≠ .dlq → ¬ Waiting deployment pool consumer event)
    (fulfils : ∀ result, deployment.mayFulfil event result = true →
      result = Processing.fulfil deployment.platform.isPrintable event) :
    (past.filterMap (tried deployment event)).reverse =
      (List.range (attemptsMade deployment.settings first
        (Processing.fulfil deployment.platform.isPrintable event))).map
        (fun i => (first + i, Processing.fulfil deployment.platform.isPrintable event)) ∧
    HasStatus pool event.orderId
      (verdict (Processing.fulfil deployment.platform.isPrintable event)) ∧
    (past.filterMap (put deployment event)).count deployment.settings.topicDlq =
      if verdict (Processing.fulfil deployment.platform.isPrintable event) = .failed then 1 else 0 := by
  obtain ⟨earlier, last, spot, standing⟩ := ladder_over ran fresh path rests
  have concluded := standing.concluded
  generalize Processing.fulfil deployment.platform.isPrintable event = result at fulfils ⊢
  have same : ∀ other ∈ earlier ++ [last], other = result := by
    intro other member
    obtain ⟨i, inside, rfl⟩ := List.getElem_of_mem member
    apply fulfils
    refine tried_results ran fresh path (first + i, (earlier ++ [last])[i]) ?_
    rw [← List.mem_reverse, concluded.tries, List.mem_mapIdx]
    exact ⟨i, inside, rfl⟩
  obtain rfl : last = result := same last (by simp)
  refine ⟨?_, concluded.status, concluded.letters⟩
  have made := concluded.ends.length same
  rw [concluded.tries]
  apply List.ext_getElem
  · simpa using made
  · intro i inside _
    rw [List.length_mapIdx] at inside
    rw [List.getElem_mapIdx, List.getElem_map, List.getElem_range, same _ (List.getElem_mem inside)]

namespace Sample

/-- Two attempts; `fulfil` as it is. -/
def twice : Deployment := Sample.deployment { maxAttempts := 2 } fulfils

def shaky : OrderEvent := Sample.event (some .transient) 1 2

/-- Nothing fails but `fulfil`, nobody crashes, and each record is handed over once. -/
def peacefully (pool : Pipeline) : Moment → Bool
  | .event (.produce _ _) => false
  | .crash _ => false
  | .did _ (.fulfil _) (.ok _) => true
  | .did _ (.fulfil _) (.lost (.transient _)) => true
  | .did _ (.handleCall _ record) (.ok _) => pool.trace.all fun
      | .did _ (.handleCall _ other) _ => decide (other.tp ≠ record.tp ∨ other.offset ≠ record.offset)
      | _ => true
  | .did thread (.evalRelease _ _) (.ok _) =>
      match stage twice pool thread with
      | .holding _ _ (.towards _ _) => false
      | _ => true
  | .did _ _ (.ok _) => true
  | .did _ _ _ => false
  | _ => true

theorem peacefully_sound {pool : Pipeline} {label : Moment} (ran : Ran twice pool)
    (passes : peacefully pool label = true) : Peaceful twice shaky pool label := by
  refine ⟨⟨?_, ?_, ?_, ?_⟩, ?_⟩
  · rintro tp record rfl
    cases passes
  · rintro thread record _ _ rfl
    cases passes
  · rintro thread record op outcome _ _ rfl
    cases op with
    | fulfil called =>
      rcases outcome with value | error | error
      · trivial
      · cases error <;> trivial
      · cases passes
    | _ =>
      rcases outcome with value | error | error
      · exact ⟨value, rfl⟩
      · cases passes
      · cases passes
  · rintro thread delivery token reason key text outcome standing _ rfl
    cases outcome with
    | ok value =>
      simp only [peacefully] at passes
      rw [standing] at passes
      cases passes
    | _ => cases passes
  · rintro thread name record outcome rfl _ taken
    cases outcome with
    | ok value =>
      have called : ∃ thread name outcome,
          Label.did thread (.handleCall name record) outcome ∈ pool.trace := by
        rcases taken with ⟨caller, inCall⟩ | ⟨consumer, committed⟩
        · exact ⟨caller, called_with ran inCall⟩
        · exact committed_called ran committed
      obtain ⟨caller, other, heard, member⟩ := called
      simp only [peacefully, List.all_eq_true] at passes
      simpa using passes _ member
    | _ => cases passes

/-- The order has just been accepted, and its event published by a call that is done. -/
def accepted (pool : Pipeline) : Bool :=
  status pool 1 = some .pending && produced pool.trace = [] && starts pool.trace = [0] &&
    (pool.world.transitions ⟨1⟩).map StatusTransition.toStatus = [.pending] &&
    (pool.world.logs ⟨"orders.created", 0⟩).length = 1 &&
    ((pool.world.logs ⟨"orders.created", 0⟩)[0]?.any fun entry => carriesEvent shaky entry &&
      entry.record.headers.getAttempt = 1) &&
    ([1, 2].all fun partition => (pool.world.logs ⟨"orders.created", partition⟩).length = 0) &&
    ([0, 1, 2].all fun partition => (pool.world.logs ⟨"orders.retry", partition⟩).length = 0) &&
    (pool.trace.all fun
      | .did _ (.handleCall _ _) _ => false
      | _ => true) &&
    (match stage twice pool 0 with
      | .submitting submission => !submission.pending
      | _ => true) &&
    pool.world.redis (.eventGuard shaky.eventId) = none &&
    ([⟨1⟩, ⟨2⟩].all fun id => decide (id ∈ pool.world.issued))

theorem accepted_fresh {pool : Pipeline} (ran : Ran twice pool) (passes : accepted pool = true) :
    Fresh twice shaky 1 (⟨"orders.created", 0⟩, 0) pool := by
  simp only [accepted, Bool.and_eq_true, decide_eq_true_eq, List.all_eq_true, List.mem_cons,
    List.not_mem_nil, or_false, Option.any_eq_true] at passes
  obtain ⟨⟨⟨⟨⟨⟨⟨⟨⟨⟨⟨pending, inside⟩, threads⟩, trail⟩, length⟩, entry, found, carries, attempt⟩,
    others⟩, retries⟩, uncalled⟩, published⟩, unguarded⟩, issued⟩ := passes
  have stands := carries_of_carriesEvent carries
  have only : ∀ (tp : TopicPartition) (offset : Nat) (other : LogEntry),
      twice.settings.carriesEvents tp.topic → (pool.world.logs tp)[offset]? = some other →
        (⟨"orders.created", 0⟩, 0) = (tp, offset) ∧ other = entry := by
    rintro ⟨topic, partition⟩ offset other carried there
    obtain ⟨bound, _⟩ := List.getElem?_eq_some_iff.mp there
    have home : partition < twice.settings.partitions topic := by
      rcases logs_home ran _ other (List.mem_of_getElem? there) with home | outside
      · exact home
      · rw [inside] at outside
        cases outside
    rcases carried with rfl | rfl
    · have three : partition < 3 := home
      rcases Nat.eq_zero_or_pos partition with rfl | above
      · obtain rfl : offset = 0 := by
          have single : (pool.world.logs ⟨twice.settings.topicOrders, 0⟩).length = 1 := length
          omega
        have same : some entry = some other := found.symm.trans there
        exact ⟨rfl, (Option.some.inj same).symm⟩
      · have empty : (pool.world.logs ⟨twice.settings.topicOrders, partition⟩).length = 0 :=
          others partition (by omega)
        omega
    · have three : partition < 3 := home
      have empty : (pool.world.logs ⟨twice.settings.topicRetry, partition⟩).length = 0 :=
        retries partition (by omega)
      omega
  constructor
  · simp only [status, Option.map_eq_some_iff] at pending
    exact pending
  · exact trail
  · constructor
    · intro tp topic other member
      obtain ⟨offset, bound, rfl⟩ := List.getElem_of_mem member
      obtain ⟨_, same⟩ := only tp offset _ topic (List.getElem?_eq_getElem bound)
      rw [same]
      exact .inl stands
    · refine every_thread (P := fun stage => ∀ submission, stage = .submitting submission →
        submission.Spares shaky) ran (by rintro _ ⟨⟩) ?_
      intro thread started submission standing waits
      rw [threads, List.mem_singleton] at started
      subst started
      rw [standing] at published
      simp [waits] at published
    · rintro id (rfl | same)
      · exact issued _ (.inl rfl)
      · exact issued id (.inr (uuid_str_injective same))
  · rfl
  · exact ⟨entry, found, stands, attempt⟩
  · intro tp offset other topic there _
    exact (only tp offset other topic there).1
  · intro thread name record outcome _ called
    have never := uncalled _ called
    cases never
  · rw [unguarded]
    rintro ⟨⟩

/-- Both attempts fail: the first is retried, the second dead-lettered. -/
def climb : Moves :=
  consume {} 1 .processor ++ runs 1 2 ++ [.run 1 (draw 3)] ++ runs 1 6 ++
    [.run 1 (result (.error (.transient shaken))), .run 1 (.normal { draw := 1 })] ++ runs 1 12 ++
    consume {} 2 .retry ++ runs 2 1 ++ [.run 2 (.normal { time := 5 })] ++ runs 2 3 ++
    [.again 1] ++ runs 1 1 ++ [.run 1 (take "orders.created" 0 1)] ++ runs 1 3 ++
    [.run 1 (draw 4)] ++ runs 1 6 ++ [.run 1 (result (.error (.transient shaken)))] ++ runs 1 11

def rested (pool : Pipeline) : Bool :=
  produced pool.trace = [] && [Consumer.processor, .retry].all fun consumer =>
    [0, 1, 2].all fun partition =>
      decide ((pool.world.logs ⟨consumer.topic {}, partition⟩).length ≤
        pool.world.committed (consumer.group {}) ⟨consumer.topic {}, partition⟩)

theorem ladder_run : ∃ start past pool, Ran twice start ∧
    Fresh twice shaky 1 (⟨"orders.created", 0⟩, 0) start ∧
    Path (system twice) (Peaceful twice shaky) start past pool ∧
    ∀ consumer, consumer ≠ .dlq → ¬ Waiting twice pool consumer shaky := by
  have shows : (play { maxAttempts := 2 } fulfils [shaky] (submit 0 (some .transient) 1 2)
      submittedOnly).any (fun start => accepted start &&
        (start.play (quick { maxAttempts := 2 } fulfils [shaky]) peacefully climb).any rested) = true := by
    decide +kernel
  simp only [Option.any_eq_true, Bool.and_eq_true] at shows
  obtain ⟨start, played, fresh, pool, climbed, rests⟩ := shows
  have ran : Ran twice start :=
    play_reached { maxAttempts := 2 } fulfils [shaky] (fun _ _ _ => trivial) played
  rw [quick_eq] at climbed
  obtain ⟨past, path⟩ : ∃ past, Path (system twice) (fun pool label => peacefully pool label = true)
      start past pool := Pool.play_path _ (fun _ _ passes => passes) climb .here climbed
  refine ⟨start, past, pool, ran, accepted_fresh ran fresh, path.mono ?_, ?_⟩
  · intro step member
    obtain ⟨_, _, _, _, walked, passes, _⟩ := path.taken member
    exact peacefully_sound (ran_along walked ran) passes
  · simp only [rested, Bool.and_eq_true, decide_eq_true_eq, List.all_eq_true, List.mem_cons,
      List.not_mem_nil, or_false] at rests
    obtain ⟨inside, committed⟩ := rests
    intro consumer through
    refine not_waiting (ran_along path ran) inside ?_
    intro partition home
    cases consumer with
    | dlq => exact absurd rfl through
    | processor =>
      have three : partition < 3 := home
      exact committed .processor (.inl rfl) partition (by omega)
    | retry =>
      have three : partition < 3 := home
      exact committed .retry (.inr rfl) partition (by omega)

end Sample

theorem retry_ladder_climbed_run : ∃ past pool,
    (∃ ladder, Shows Sample.twice Sample.shaky 1 past pool ladder) ∧
      ((past.filterMap (put Sample.twice Sample.shaky)).length : Int) ≤ 2 * max 0 (2 - 1) + 1 := by
  obtain ⟨start, past, pool, ran, fresh, path, _⟩ := Sample.ladder_run
  exact ⟨past, pool, retry_ladder_climbed ran fresh path⟩

theorem retry_ladder_concludes_run : ∃ past pool earlier last,
    Concluded Sample.twice Sample.shaky 1 past pool earlier last := by
  obtain ⟨start, past, pool, ran, fresh, path, rests⟩ := Sample.ladder_run
  exact ⟨past, pool, retry_ladder_concludes ran fresh path rests⟩

/-- Two attempts, and a letter. -/
theorem retry_ladder_determined_run : ∃ (past : List (Pipeline × Moment)) (pool : Pipeline),
    (past.filterMap (tried Sample.twice Sample.shaky)).reverse =
      [(1, .error (.transient Sample.shaken)), (2, .error (.transient Sample.shaken))] ∧
    HasStatus pool ⟨1⟩ .failed ∧
    (past.filterMap (put Sample.twice Sample.shaky)).count "orders.dlq" = 1 := by
  obtain ⟨start, past, pool, ran, fresh, path, rests⟩ := Sample.ladder_run
  exact ⟨past, pool, retry_ladder_determined ran fresh path rests fun _ => Sample.fulfils_sound⟩

end OrderFlow
