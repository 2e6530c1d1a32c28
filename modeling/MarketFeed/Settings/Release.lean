/-!
What the library calls itself in reports.
-/

namespace MarketFeed.Release

def version : String := "0.1.0"

def coreName : String := "ccxt-stream-core"

def coreVersion : String := "0.1.0"

end MarketFeed.Release
