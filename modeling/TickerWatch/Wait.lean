namespace TickerWatch

def longestWait : Nat := 30 * 365 * 86400 * 1000

def waitEnd (time duration : Nat) : Nat := time + min duration longestWait

end TickerWatch
