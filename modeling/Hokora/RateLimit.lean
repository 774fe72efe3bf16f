import Mathlib.Data.Rat.Floor
import Hokora.Constants
import Hokora.KeyedTable
import Hokora.PyValue

/-!
# Token buckets and slowmode

Times are rationals. The two tables are cleaned at capacity and by the maintenance.
-/
namespace Hokora.RateLimit
open Constants KeyedTable PyValue

structure TokenBucket where
  identity : String
  tokens : ℚ
  maxTokens : ℚ
  refillRate : ℚ
  lastRefill : ℚ

structure SlowmodeEntry where
  key : String
  last : ℚ

structure RateLimiter where
  maxTokens : ℚ := 10
  refillRate : ℚ := 1
  buckets : Table TokenBucket.identity := .empty
  slowmodeLast : Table SlowmodeEntry.key := .empty

def TokenBucket.consume (b : TokenBucket) (now : ℚ) : TokenBucket × Bool :=
  let tokens := min b.maxTokens (b.tokens + (now - b.lastRefill) * b.refillRate)
  if 1 ≤ tokens then ({ b with tokens := tokens - 1, lastRefill := now }, true)
  else ({ b with tokens := tokens, lastRefill := now }, false)

def RateLimiter.cleanupStale (lim : RateLimiter) (maxAge now : ℚ) : RateLimiter :=
  { lim with
    buckets := lim.buckets.select fun b => !(maxAge < now - b.lastRefill)
    slowmodeLast := lim.slowmodeLast.select fun e => !(maxAge < now - e.last) }

def exceeded (text : String) : PyError := .hokora .rateLimitExceeded text

def take8 (identityHash : String) : String := String.ofList (identityHash.toList.take 8)

def RateLimiter.consumeFrom (lim : RateLimiter) (b : TokenBucket) (now : ℚ) :
    RateLimiter × Py Unit :=
  let r := b.consume now
  ({ lim with buckets := lim.buckets.set r.1 },
    if r.2 then .ok ()
    else .error (exceeded ("Rate limit exceeded for " ++ take8 b.identity ++ "...")))

def RateLimiter.checkRateLimit (lim : RateLimiter) (identityHash : String) (now : ℚ) :
    RateLimiter × Py Unit :=
  match lim.buckets.get? identityHash with
  | some b => lim.consumeFrom b now
  | none =>
    let lim' := if maxRateLimitBuckets ≤ lim.buckets.rows.length
      then lim.cleanupStale 600 now else lim
    if maxRateLimitBuckets ≤ lim'.buckets.rows.length then
      (lim', .error (exceeded "Too many tracked identities"))
    else
      lim'.consumeFrom
        { identity := identityHash, tokens := lim.maxTokens, maxTokens := lim.maxTokens,
          refillRate := lim.refillRate, lastRefill := now } now

def roundHalfEven (q : ℚ) : ℤ :=
  let f := ⌊q⌋
  if q - f < 1 / 2 then f
  else if 1 / 2 < q - f then f + 1
  else if f % 2 = 0 then f else f + 1

def RateLimiter.checkSlowmode (lim : RateLimiter) (identityHash channelId : String)
    (slowmodeSeconds : ℤ) (now : ℚ) : RateLimiter × Py Unit :=
  if slowmodeSeconds ≤ 0 then (lim, .ok ()) else
    let key := identityHash ++ ":" ++ channelId
    let lim' := if maxRateLimitBuckets ≤ lim.slowmodeLast.rows.length
      then lim.cleanupStale 600 now else lim
    if maxRateLimitBuckets ≤ lim'.slowmodeLast.rows.length then
      (lim', .error (exceeded "Too many tracked slowmode entries"))
    else
      let last := ((lim'.slowmodeLast.get? key).map SlowmodeEntry.last).getD 0
      if now - last < slowmodeSeconds then
        (lim', .error (exceeded ("Slowmode active: wait " ++
          toString (roundHalfEven (slowmodeSeconds - (now - last))) ++ "s")))
      else ({ lim' with slowmodeLast := lim'.slowmodeLast.set ⟨key,now⟩ }, .ok ())

end Hokora.RateLimit
