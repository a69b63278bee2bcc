import SelectMerge.Run.Reducer

/-!
# Pools

The producers of a `Pool` work side by side. Each ends by sending its block or its error, or crashes
and sends nothing (`Producer.sends`); the channel closes once all have ended. The coordinator takes
what was sent in the order of sending, until it has folded as many blocks as there are producers. It
gives up at an error, at a block that cannot be folded, when the deadline passes while it waits, or
when nothing more can come.

An execution is any interleaving of steps (`Pool.Step`) up to an end (`Pool.Ends`). What the
coordinator may meet when it waits is `Pool.Meets`: the deadline may pass at any time, but a
deadline of nothing does not keep the coordinator from taking what it finds sent. Delivery in the
order of the list, as `Producer.arrivals` and `Reducer.delivered` have it, is one execution.
-/

namespace SelectMerge

/-- What a producer sends when it ends. -/
def Producer.sends : Producer → Option Receipt
  | returns b => some (.block b)
  | fails e => some (.failed e)
  | crashes => none

/-- A pool at work: the producers that have not ended, what was sent and not yet taken, how many
blocks the coordinator waits for, those that it has folded, and its run. -/
structure Pool where
  working : List Producer
  sent : List Receipt
  awaited : Nat
  folded : List Block
  progress : Progress

namespace Pool

def start (ps : List Producer) (meter : Option Meter) : Pool :=
  ⟨ps, [], ps.length, [], .start meter⟩

/-- What the coordinator may meet when it waits. The deadline may pass at any time. -/
inductive Meets (deadline : Option Nat) (pool : Pool) : Receipt → Prop where
  | message {r : Receipt} {rest : List Receipt} (hsent : pool.sent = r :: rest) :
      Meets deadline pool r
  | expired (hdeadline : deadline.isSome) : Meets deadline pool .expired
  | closed (hworking : pool.working = []) (hsent : pool.sent = []) : Meets deadline pool .closed

/-- A step: a producer ends, or the coordinator folds a block. -/
inductive Step (c : Combiner) : Pool → Pool → Prop where
  | ends (before : List Producer) (p : Producer) (after : List Producer) (sent : List Receipt)
      (awaited : Nat) (folded : List Block) (progress : Progress) :
      Step c ⟨before ++ p :: after, sent, awaited, folded, progress⟩
        ⟨before ++ after, sent ++ p.sends.toList, awaited, folded, progress⟩
  | folds (working : List Producer) (b : Block) (sent : List Receipt) (awaited : Nat)
      (folded : List Block) {progress progress' : Progress}
      (hmeet : (Run.meet c (.block b)).run.run progress = (.ok (), progress')) :
      Step c ⟨working, .block b :: sent, awaited + 1, folded, progress⟩
        ⟨working, sent, awaited, folded ++ [b], progress'⟩

/-- How the coordinator ends: with a result when it waits for no more, or with what it halts on. -/
inductive Ends (c : Combiner) (deadline : Option Nat) (pool : Pool) : Outcome → Option Meter → Prop
    where
  | finishes (hawaited : pool.awaited = 0) :
      Ends c deadline pool (.ok pool.progress.selection) pool.progress.stop.meter
  | halts {r : Receipt} {h : Halt} {p : Progress} (hawaited : 0 < pool.awaited)
      (hmeets : pool.Meets deadline r)
      (hmeet : (Run.meet c r).run.run pool.progress = (.error h, p)) :
      Ends c deadline pool (.error h) p.meter

end Pool

end SelectMerge
