import CanvasPainter.Provenance
import CanvasPainter.VisibleStrokes
import CanvasPainter.ButtonSubviews
import CanvasPainter.ShareHistory
import CanvasPainter.SharedTitles
import CanvasPainter.Alerts
import CanvasPainter.FeedOnce
import CanvasPainter.FeedTraps
import CanvasPainter.FeedListings
import CanvasPainter.FeedSole
import CanvasPainter.FeedLayout
import CanvasPainter.PutDataResumed
import CanvasPainter.FetcherLedger
import CanvasPainter.StorageWalks
import CanvasPainter.DownloadURLs
import CanvasPainter.SharedArrivals
import CanvasPainter.FeedPages
import CanvasPainter.UploadedFeed
