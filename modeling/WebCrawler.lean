import WebCrawler.Utils.HashUtils
import WebCrawler.Utils.UrlUtils
import WebCrawler.Scheduler.Frontier
import WebCrawler.Dedup
import WebCrawler.Fetcher
import WebCrawler.Parser
import WebCrawler.Parser.TermPositions
import WebCrawler.Indexer.Invariant
import WebCrawler.Indexer.Search
import WebCrawler.Indexer.Bm25
import WebCrawler.Storage
import WebCrawler.Crawl
import WebCrawler.Observability.Metrics
import WebCrawler.MainLoop
import WebCrawler.Indexer.Segments
import WebCrawler.Observability.Prometheus
import WebCrawler.Observability.Logger
import WebCrawler.Crawl.Backoff
